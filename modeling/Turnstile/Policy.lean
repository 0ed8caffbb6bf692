import Turnstile.Limit
import Turnstile.Key
import Turnstile.Table
import Turnstile.Decimal.Text

/-!
What protects a route, and the table of routes.

A policy is fully resolved. A table holds one policy a route, under the normal form that bucket keys use, and
a policy for all other routes; only usable policies get in.
-/

namespace Turnstile

/-- Who makes idempotency keys up. -/
inductive KeyOrigin where
  /-- Clients make their own; a new key is taken as issued. -/
  | client
  /-- The server issues them; any other key is refused. -/
  | server
  deriving DecidableEq, Repr

namespace KeyOrigin

def name : KeyOrigin → String
  | .client => "client"
  | .server => "server"

def ofName? (name : String) : Option KeyOrigin :=
  if name = "client" then some .client else if name = "server" then some .server else none

def names : List String := [client.name, server.name]

end KeyOrigin

/-- All that protects one route. -/
structure Policy where
  limit : Limit
  /-- Tokens that one request costs. -/
  cost : UInt32
  /-- The share of the capacity below which requests are slowed down. -/
  threshold : Binary64
  /-- Who makes idempotency keys up; none if the route is not idempotent. -/
  origin : Option KeyOrigin
  deriving DecidableEq, Repr, Inhabited

/-- Whether a number lies above zero and at most at one. -/
def isShare (x : Binary64) : Bool := Binary64.lt 0 x && x.le 1

namespace Policy

/-- What makes a policy unusable. -/
inductive Fault where
  | limit (fault : Limit.Fault)
  | costAboveCapacity (cost capacity : UInt32)
  | threshold (value : Binary64)
  deriving DecidableEq, Repr

def Fault.message : Fault → String
  | .limit fault => fault.message
  | .costAboveCapacity cost capacity => s!"Cost {cost.toNat} exceeds bucket capacity {capacity.toNat}"
  | .threshold value => "Throttle threshold " ++ Decimal.plain value ++ " must be in (0, 1]"

/-- The first thing that makes a policy unusable. -/
def fault? (p : Policy) : Option Fault :=
  match p.limit.fault? with
  | some fault => some (.limit fault)
  | none =>
    if p.limit.capacity < p.cost then some (.costAboveCapacity p.cost p.limit.capacity)
    else if !isShare p.threshold then some (.threshold p.threshold)
    else none

end Policy

/-- A route in the form that tables and bucket keys share. -/
structure RouteName where
  endpoint : String
  method : String
  deriving DecidableEq, Repr

/-- The name of the route that a path and a method are on. -/
def RouteName.of (path method : String) : RouteName := ⟨endpointSegment path, methodSegment method⟩

/-- Policies by route, and one for every other route. -/
structure Policies where
  otherwise : Policy
  routes : Table RouteName Policy

namespace Policies

/-- A fault in the policies: in the one for all other routes, or in that of a route as it was written. -/
inductive Fault where
  | otherwise (fault : Policy.Fault)
  | route (path method : String) (fault : Policy.Fault)
  deriving DecidableEq, Repr

def Fault.message : Fault → String
  | .otherwise fault => fault.message
  | .route path method fault => method ++ " " ++ path ++ ": " ++ fault.message

/-- The table without routes. -/
def new (otherwise : Policy) : Except Fault Policies :=
  match otherwise.fault? with
  | some fault => .error (.otherwise fault)
  | none => .ok ⟨otherwise, .empty⟩

/-- Sets the policy of a route, if it is usable. -/
def insert (t : Policies) (path method : String) (p : Policy) : Except Fault Policies :=
  match p.fault? with
  | some fault => .error (.route path method fault)
  | none => .ok { t with routes := t.routes.insert (.of path method) p }

/-- The policy of a request. -/
def resolve (t : Policies) (path method : String) : Policy :=
  (t.routes.find? (.of path method)).getD t.otherwise

end Policies

end Turnstile
