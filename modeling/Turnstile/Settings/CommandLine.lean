import Turnstile.Health
import Turnstile.Settings

/-!
Settings from the command line and the environment.

An option is written `--name value` or `--name=value` and may stand on the command line once. Each option is
also read from the variable of its name in upper case; the command line counts for more than a variable, and a
variable for more than the usual value.
-/

namespace Turnstile.Settings

/-- What is wrong with the value of an option. -/
inductive ValueFault where
  /-- It is not one of the values that the option takes. -/
  | refused
  /-- It can not be read. -/
  | unreadable (why : String)
  /-- Reading it breaks off. -/
  | broke (why : Breakdown)
  deriving DecidableEq, Repr

/-- An option: its name, whether it stands without a value, and what a value sets. -/
structure Choice where
  name : String
  isFlag : Bool
  set : Settings → String → Except ValueFault Settings

/-- Why a command line gives no settings. -/
inductive ArgumentFault where
  | help
  | version
  | unknown (argument : String)
  | repeated (argument : String)
  /-- A value for an option that takes none. -/
  | surplus (argument value : String)
  /-- No value, or one that is not among those that the option takes. -/
  | refused (argument value : String)
  | unreadable (argument value why : String)
  /-- Reading breaks off. -/
  | broke (why : Breakdown)
  deriving DecidableEq, Repr

namespace Choice

/-- The name in upper case, with an underscore for each hyphen. -/
def variableName (c : Choice) : String :=
  String.ofList (c.name.toList.map fun ch => if ch = '-' then '_' else ch.toUpper)

/-- The option as it is shown in messages. -/
def shown (c : Choice) : String :=
  if c.isFlag then "--" ++ c.name else "--" ++ c.name ++ " <" ++ c.variableName ++ ">"

def span (name : String) (put : Settings → Span → Settings) : Choice where
  name := name
  isFlag := false
  set s text :=
    match Span.read text with
    | .ok span => .ok (put s span)
    | .error (.broke why) => .error (.broke why)
    | .error fault => .error (.unreadable fault.message)

/-- Why a text is no whole number of 64 bits with a sign. -/
def wholeFault? (negative : Bool) : Nat → List Char → Option String
  | _, [] => none
  | n, c :: rest =>
    if !c.isDigit then some "invalid digit found in string"
    else
      let n := 10 * n + (c.toNat - '0'.toNat)
      if negative && signedLimit < n then some "number too small to fit in target type"
      else if !negative && signedLimit ≤ n then some "number too large to fit in target type"
      else wholeFault? negative n rest

/-- Reads a 32-bit count. -/
def readCount (text : String) : Except String UInt32 :=
  if text.isEmpty then .error "cannot parse integer from empty string"
  else
    let (negative, digits) := Decimal.takeSign text.toList
    if digits.isEmpty then .error "invalid digit found in string"
    else
      match wholeFault? negative 0 digits with
      | some fault => .error fault
      | none =>
        let n := Decimal.digitsValue digits
        if n = 0 then .ok 0
        else if negative then .error s!"-{n} is not in 0..=4294967295"
        else if maxCount < n then .error s!"{n} is not in 0..=4294967295"
        else .ok (.ofNat n)

def count (name : String) (put : Settings → UInt32 → Settings) : Choice where
  name := name
  isFlag := false
  set s text := ((readCount text).map (put s)).mapError .unreadable

def text (name : String) (put : Settings → String → Settings) : Choice where
  name := name
  isFlag := false
  set s text := .ok (put s text)

end Choice

/-- The options, in the order in which their variables are looked at. -/
def choices : List Choice :=
  [{ name := "bind-addr", isFlag := false
     set := fun s text =>
       match Endpoint.read text with
       | some address => .ok { s with address }
       | none => .error (.unreadable "invalid socket address syntax") },
    .text "redis-url" fun s v => { s with redisUrl := v },
    .text "log-level" fun s v => { s with logLevel := v },
    .span "idempotency-ttl" fun s v => { s with recordLife := v },
    .span "lock-ttl" fun s v => { s with lockLife := v },
    .span "max-throttle-delay" fun s v => { s with maxDelay := v },
    { name := "throttle-threshold", isFlag := false
      set := fun s text =>
        ((Decimal.read text).map fun v => { s with threshold := v }).mapError fun e => .unreadable e.message },
    .count "default-bucket-capacity" fun s v => { s with capacity := v },
    .count "default-refill-tokens" fun s v => { s with refill := v },
    .span "default-refill-period" fun s v => { s with period := v },
    { name := "limiter-failure-policy", isFlag := false
      set := fun s text =>
        ((OutagePolicy.read text).map fun v => { s with onOutage := v }).mapError .unreadable },
    { name := "routes-file", isFlag := false
      set := fun s text =>
        if text.isEmpty then .error .refused else .ok { s with routesFile := some text } },
    { name := "trust-forwarded-headers", isFlag := true
      set := fun s text =>
        if text = "true" then .ok { s with trustHeaders := true }
        else if text = "false" then .ok { s with trustHeaders := false }
        else .error .refused },
    .span "store-sweep-interval" fun s v => { s with sweepInterval := v }]

/-- How the program is called. -/
def usage : String :=
  "Usage: turnstile [OPTIONS]\n\nOptions:\n" ++ String.join (choices.map fun c => "  " ++ c.shown ++ "\n")

/-- What is printed for a command line that gives no settings. -/
def ArgumentFault.message : ArgumentFault → String
  | .help => usage
  | .version => "turnstile " ++ Health.currentVersion ++ "\n"
  | .unknown argument => "unexpected argument '" ++ argument ++ "'\n"
  | .repeated argument => "the argument '" ++ argument ++ "' is given more than once\n"
  | .surplus argument value => "unexpected value '" ++ value ++ "' for '" ++ argument ++ "'\n"
  | .refused argument value => "invalid value '" ++ value ++ "' for '" ++ argument ++ "'\n"
  | .unreadable argument value why => "invalid value '" ++ value ++ "' for '" ++ argument ++ "': " ++ why ++ "\n"
  | .broke why => why.message ++ "\n"

/-- Whether the command line asked for just this message. -/
def ArgumentFault.isAnswer : ArgumentFault → Bool
  | .help | .version => true
  | _ => false

/-- What has been read of a command line. -/
structure Progress where
  settings : Settings
  /-- The names of the options that have been set. -/
  given : List String
  /-- An option that is to be set, with its value if that has been read. -/
  pending : Option (Choice × Option String)

namespace Progress

def start : Progress := ⟨usual, [], none⟩

/-- Sets an option. -/
def apply (p : Progress) (c : Choice) (value : String) : Except ArgumentFault Progress :=
  if p.given.contains c.name then .error (.repeated c.shown)
  else
    match c.set p.settings value with
    | .ok settings => .ok { p with settings, given := c.name :: p.given }
    | .error .refused => .error (.refused c.shown value)
    | .error (.unreadable why) => .error (.unreadable c.shown value why)
    | .error (.broke why) => .error (.broke why)

/-- Sets the pending option. -/
def settle (p : Progress) : Except ArgumentFault Progress :=
  match p.pending with
  | none => .ok p
  | some (c, none) => .error (.refused c.shown "")
  | some (c, some value) => { p with pending := none }.apply c value

/-- Whether the next argument may be the value of the pending option. -/
def awaits (p : Progress) : Option Choice :=
  match p.pending with
  | some (c, none) => some c
  | _ => none

/-- Reads `--name` or `--name=value`. What is wrong with the argument itself comes before what is wrong with
    the pending option. -/
def long (p : Progress) (name : String) (value : Option String) : Except ArgumentFault Progress :=
  match choices.find? (·.name == name) with
  | some c =>
    match c.isFlag, value with
    | true, some value => .error (.surplus c.shown value)
    | true, none => do (← p.settle).apply c "true"
    | false, some value => do (← p.settle).apply c value
    | false, none => do return { ← p.settle with pending := some (c, none) }
  | none =>
    let stop (fault : ArgumentFault) : Except ArgumentFault Progress :=
      match value with
      | some value => .error (.surplus ("--" ++ name) value)
      | none => do
        let _ ← p.settle
        .error fault
    if name = "help" then stop .help
    else if name = "version" then stop .version
    else .error (.unknown ("--" ++ name))

/-- Reads an argument with one hyphen. -/
def short (p : Progress) (c : Char) : Except ArgumentFault Progress :=
  if c = 'h' then do
    let _ ← p.settle
    .error .help
  else if c = 'V' then do
    let _ ← p.settle
    .error .version
  else .error (.unknown (String.ofList ['-', c]))

/-- Reads the arguments. -/
def arguments (p : Progress) : List String → Except ArgumentFault Progress
  | [] => p.settle
  | a :: rest =>
    match a.toList with
    | ['-', '-'] =>
      match rest with
      | [] => p.settle
      | a :: _ => .error (.unknown a)
    | '-' :: '-' :: body => do
      let name := String.ofList (body.takeWhile (· != '='))
      let value := match body.dropWhile (· != '=') with
        | [] => none
        | _ :: value => some (String.ofList value)
      (← p.long name value).arguments rest
    | '-' :: c :: _ => do (← p.short c).arguments rest
    | _ =>
      match p.awaits with
      | some c => { p with pending := some (c, some a) }.arguments rest
      | none => .error (.unknown a)

/-- Sets the options that the command line left out from their variables. -/
def fromVariables (p : Progress) (environment : List (String × String)) : List Choice → Except ArgumentFault Progress
  | [] => .ok p
  | c :: rest =>
    match (environment.find? (·.1 == c.variableName)).map (·.2) with
    | some value =>
      if p.given.contains c.name then p.fromVariables environment rest
      else do (← p.apply c value).fromVariables environment rest
    | none => p.fromVariables environment rest

end Progress

/-- Reads the settings. -/
def read (arguments : List String) (environment : List (String × String)) : Except ArgumentFault Settings := do
  let p ← Progress.start.arguments arguments
  let p ← p.fromVariables environment choices
  return p.settings

end Turnstile.Settings
