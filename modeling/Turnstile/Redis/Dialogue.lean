import Turnstile.Call
import Turnstile.Whole
import Turnstile.Failure
import Turnstile.Text.Quoted

/-!
Calls of the store as talk with a Redis server.

Reads and plain writes are single commands. What has to look first and then write is a script that runs on the
server, called by its digest; a server that does not know the script is given its text once. Times go over the
wire in whole milliseconds, at least one.
-/

namespace Turnstile.Redis

/-- What a server replies. -/
inductive Reply where
  | none
  | number (n : Int)
  | text (s : String)
  | simple (s : String)
  | items (replies : List Reply)
  | error (line : String)
  deriving Repr

namespace Reply

mutual

/-- A reply as it is shown in messages. -/
def shown : Reply → String
  | .none => "nil"
  | .number n => "int(" ++ toString n ++ ")"
  | .text s => "string-data('" ++ Text.quoted s ++ "')"
  | .simple s => if s = "OK" then "ok" else "status(" ++ Text.quoted s ++ ")"
  | .items replies => "bulk(" ++ shownItems replies ++ ")"
  | .error line => line

def shownItems : List Reply → String
  | [] => ""
  | [r] => r.shown
  | r :: rest => r.shown ++ ", " ++ shownItems rest

end

/-- The names for the kinds of errors that servers signal. -/
def errorKinds : List (String × String) :=
  [("ERR", "ResponseError"), ("EXECABORT", "ExecAbortError"), ("LOADING", "BusyLoadingError"),
    ("NOSCRIPT", "NoScriptError"), ("MOVED", "Moved"), ("ASK", "Ask"), ("TRYAGAIN", "TryAgain"),
    ("CLUSTERDOWN", "ClusterDown"), ("CROSSSLOT", "CrossSlot"), ("MASTERDOWN", "MasterDown"),
    ("READONLY", "ReadOnly"), ("NOTBUSY", "NotBusy")]

mutual

/-- The error line of a reply; the first one counts among items, however deep they are. -/
def fault? : Reply → Option String
  | .error line => some line
  | .items replies => faultAmong? replies
  | _ => Option.none

def faultAmong? : List Reply → Option String
  | [] => Option.none
  | r :: rest => r.fault?.or (faultAmong? rest)

end

/-- An error line in words: its first word is the kind. A kind without a name here is told as it stands. -/
def errorText (line : String) : String :=
  let cs := line.toList
  let code := String.ofList (cs.takeWhile (· ≠ ' '))
  let detail := match cs.dropWhile (· ≠ ' ') with
    | [] => Option.none
    | _ :: detail => some (String.ofList detail)
  match (errorKinds.find? (·.1 == code)).map (·.2) with
  | some kind =>
    "An error was signalled by the server- " ++ kind ++
      (detail.map fun d => ": " ++ d).getD ""
  | Option.none => code ++ ": " ++ detail.getD "Unknown extension error encountered"

/-- The failure for a reply that does not have the form it should have. -/
def misfit (r : Reply) (why : String) : Failure :=
  .storeUnavailable ("Response was of incompatible type- TypeError: " ++ Text.quoted why ++ " (response was " ++
    r.shown ++ ")")

def asText : Reply → Except Failure String
  | .text s | .simple s => .ok s
  | r => .error (r.misfit "Response type not string compatible.")

def asText? : Reply → Except Failure (Option String)
  | .none => .ok Option.none
  | r => r.asText.map some

/-- A text that may be the digits of a number. An acknowledgement never is. -/
def numeral? : Reply → Option String
  | .text s => some s
  | .simple s => if s = "OK" then Option.none else some s
  | _ => Option.none

def asNumber : Reply → Except Failure Int
  | .number n => .ok n
  | r =>
    match r.numeral? with
    | Option.none => .error (r.misfit "Response type not convertible to numeric.")
    | some s =>
      match Decimal.readWhole? s.toList with
      | some n => .ok n
      | Option.none => .error (r.misfit "Could not convert from string.")

def asThree : Reply → Except Failure (Int × Int × Int)
  | .items [a, b, c] => do return (← a.asNumber, ← b.asNumber, ← c.asNumber)
  | .items replies => .error (misfit (.items replies) "Bulk response of wrong dimension")
  | r => .error (r.misfit "Not a bulk response")

end Reply

/-- A talk that ends with an answer: commands are sent one after another, each after the reply to the last. -/
inductive Dialogue (α : Type) where
  | over (answer : Except Failure α)
  | send (command : List String) (next : Reply → Dialogue α)

/-- A script with the digest of its text. -/
structure Script where
  digest : String
  text : String

/-- Replaces the expected value; answers one if it did. -/
def compareAndSet : Script where
  digest := "055c37c4b492dc8ce4190d2c86dffb430776f41f"
  text := "
if redis.call('GET', KEYS[1]) == ARGV[1] then
  redis.call('SET', KEYS[1], ARGV[2], 'PX', ARGV[3])
  return 1
end
return 0
"

/-- Removes the expected value; answers how many it removed. -/
def deleteIfEquals : Script where
  digest := "f4f23e4b63559980e4fd8dd1b2bf8e156fe4c29f"
  text := "
if redis.call('GET', KEYS[1]) == ARGV[1] then
  return redis.call('DEL', KEYS[1])
end
return 0
"

/-- Takes capacity, refill, the period in milliseconds, the cost, and how many milliseconds an untouched bucket
    is kept. Answers whether the cost was met, whole tokens left, and milliseconds to wait. -/
def takeTokens : Script where
  digest := "9e143281f87dae47242dcb73d2b29f939d111cde"
  text := "
local capacity = tonumber(ARGV[1])
local refill_tokens = tonumber(ARGV[2])
local period_ms = tonumber(ARGV[3])
local cost = tonumber(ARGV[4])
local idle_ttl_ms = tonumber(ARGV[5])

local time = redis.call('TIME')
local now_ms = tonumber(time[1]) * 1000 + math.floor(tonumber(time[2]) / 1000)

local state = redis.call('HMGET', KEYS[1], 'tokens', 'last_refill_ms')
local tokens = tonumber(state[1])
local last_refill_ms = tonumber(state[2])
if tokens == nil or last_refill_ms == nil then
  tokens = capacity
  last_refill_ms = now_ms
end

if now_ms > last_refill_ms then
  tokens = math.min(capacity, tokens + (now_ms - last_refill_ms) / period_ms * refill_tokens)
  last_refill_ms = now_ms
end

local consumed = 0
if tokens >= cost then
  tokens = tokens - cost
  consumed = 1
end

local wait_ms = 0
if tokens < cost then
  wait_ms = math.ceil((cost - tokens) / refill_tokens) * period_ms
end

redis.call('HSET', KEYS[1], 'tokens', tostring(tokens), 'last_refill_ms', tostring(last_refill_ms))
redis.call('PEXPIRE', KEYS[1], idle_ttl_ms)

return \x7bconsumed, math.floor(tokens), wait_ms\x7d
"

/-- Whole milliseconds in 64 bits, at least one. -/
def wireMillis (s : Span) : Nat := max 1 (s.millis % word64Limit)

/-- The arguments of the script that takes tokens. -/
def takeArguments (l : Limit) (keep : Span) (cost : UInt32) : List Nat :=
  [l.capacity.toNat, l.refill.toNat, wireMillis l.period, cost.toNat, wireMillis keep]

namespace Dialogue

variable {α : Type}

/-- The end of a talk: what the last reply is read as, or its error. -/
def concluding (read : Reply → Except Failure α) (r : Reply) : Dialogue α :=
  match r.fault? with
  | some line => .over (.error (.storeUnavailable (Reply.errorText line)))
  | none => .over (read r)

/-- Sends a command and reads its reply. -/
def ask (command : List String) (read : Reply → Except Failure α) : Dialogue α :=
  .send command (concluding read)

/-- Whether an error line says that the server does not know a script. -/
def isUnknownScript (line : String) : Bool := line.toList.takeWhile (· ≠ ' ') = "NOSCRIPT".toList

/-- Runs a script on a key. A server that does not know it is given its text and asked once more. -/
def run (s : Script) (key : String) (arguments : List String) (read : Reply → Except Failure α) : Dialogue α :=
  let command := ["EVALSHA", s.digest, "1", key] ++ arguments
  .send command fun reply =>
    if reply.fault?.any isUnknownScript then
      .send ["SCRIPT", "LOAD", s.text] fun loaded =>
        match loaded.fault? with
        | some line => .over (.error (.storeUnavailable (Reply.errorText line)))
        | none => ask command read
    else concluding read reply

/-- The talk over a run of replies: the commands that were sent, and the answer. A server that has no more
    replies signals an error. -/
def play : Dialogue α → List Reply → List (List String) × Except Failure α
  | .over answer, _ => ([], answer)
  | .send command next, replies =>
    let (sent, answer) := (next (replies.headD (.error "ERR no reply scripted"))).play replies.tail
    (command :: sent, answer)

end Dialogue

/-- The grant that the reply of the script stands for. -/
def grantOf (r : Reply) : Except Failure Grant := do
  let (consumed, remaining, wait) ← r.asThree
  return ⟨consumed = 1, remaining.toNat, min (wait.toNat * 1000000) maxLongCount⟩

/-- The talk that a call of the store is. Every key is written behind `keyStart`, which keeps the keys of this
    service apart from others on the same server. -/
def dialogue (keyStart : String) : (c : Call) → Except Breakdown (Dialogue c.Reply)
  | .get key => .ok (.ask ["GET", keyStart ++ key] Reply.asText?)
  | .set key value life =>
    .ok (.ask ["SET", keyStart ++ key, value, "PX", toString (wireMillis life)] fun _ => .ok ())
  | .setIfAbsent key value life =>
    .ok (.ask ["SET", keyStart ++ key, value, "NX", "PX", toString (wireMillis life)] fun r =>
      r.asText?.map Option.isSome)
  | .compareAndSet key expected value life =>
    .ok (.run Redis.compareAndSet (keyStart ++ key) [expected, value, toString (wireMillis life)] fun r =>
      r.asNumber.map fun n => decide (n = 1))
  | .delete key => .ok (.ask ["DEL", keyStart ++ key] fun r => r.asNumber.map fun n => decide (0 < n))
  | .deleteIfEquals key expected =>
    .ok (.run Redis.deleteIfEquals (keyStart ++ key) [expected] fun r => r.asNumber.map fun n => decide (0 < n))
  | .take key limit cost => do
    let arguments := takeArguments limit (← limit.keep) cost
    return .run Redis.takeTokens (keyStart ++ key) (arguments.map toString) grantOf
  | .ping => .ok (.ask ["PING"] Reply.asText)

end Turnstile.Redis
