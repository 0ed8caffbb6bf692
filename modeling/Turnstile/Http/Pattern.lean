import Turnstile.Text.Quoted

/-!
Patterns of paths, and the search for the pattern that a path follows.

A pattern is fixed text with open parts. A part that begins with a colon stands for the rest of a segment, one
that begins with a star for all the rest of a path; neither stands for nothing. The patterns are searched side
by side: the text that all of them begin with is compared at once, and where they part, fixed text is tried
before an open part.
-/

namespace Turnstile.Http.Pattern

/-- A piece of a pattern. -/
inductive Piece where
  | char (c : Char)
  /-- Whatever is left of a segment. -/
  | segment
  /-- Whatever is left of a path. -/
  | rest
  deriving DecidableEq, Repr

def isOpening (c : Char) : Bool := c = ':' || c = '*'

/-- The pieces of a pattern; `inName` tells that the name of an open part goes on. -/
def piecesFrom (inName : Bool) : List Char → List Piece
  | [] => []
  | c :: cs =>
    if c = '/' then .char c :: piecesFrom false cs
    else if inName then piecesFrom true cs
    else if c = ':' then .segment :: piecesFrom true cs
    else if c = '*' then .rest :: piecesFrom true cs
    else .char c :: piecesFrom false cs

def pieces (pattern : String) : List Piece := piecesFrom false pattern.toList

/-- The open part of a segment: the fixed text before it, the character that opens it, and its name. -/
def openPart? (segment : List Char) : Option (List Char × Char × List Char) :=
  match segment.dropWhile fun c => !isOpening c with
  | [] => none
  | c :: name => some (segment.takeWhile fun c => !isOpening c, c, name)

/-- The names of the open parts. -/
def names (pattern : String) : List String :=
  ((pattern.toList.splitOn '/').filterMap openPart?).map fun part => String.ofList part.2.2

/-- What is wrong with a pattern on its own. -/
inductive Fault where
  | empty
  | noSlash
  | unnamed
  /-- Two open parts in one segment. -/
  | crowded
  /-- A part for the rest that has something beside or behind it. -/
  | misplacedRest
  deriving DecidableEq, Repr

def Fault.message : Fault → String
  | .empty => "Paths must start with a `/`. Use \"/\" for root routes"
  | .noSlash => "Paths must start with a `/`"
  | .unnamed => "parameters must be registered with a name"
  | .crowded => "only one parameter is allowed per path segment"
  | .misplacedRest => "catch-all parameters are only allowed at the end of a route"

/-- What is wrong with the open part of a segment. -/
def partFault? (segment : List Char) : Option Fault :=
  match openPart? segment with
  | none => none
  | some (_, _, name) => if name.any isOpening then some .crowded else if name.isEmpty then some .unnamed else none

/-- Whether a segment is not just a part for the rest, but has one. -/
def hasCrampedRest (segment : List Char) : Bool := segment.head? ≠ some '*' && segment.contains '*'

/-- What is wrong with a pattern before it is set beside others. -/
def fault? (pattern : String) : Option Fault :=
  if pattern.isEmpty then some .empty
  else if !pattern.startsWith "/" then some .noSlash
  else (pattern.toList.splitOn '/').findSome? partFault?

/-- What is wrong with a pattern that can be told apart from all others: its part for the rest. -/
def restFault? (pattern : String) : Option Fault :=
  let segments := pattern.toList.splitOn '/'
  if segments.dropLast.any (·.contains '*') || segments.any hasCrampedRest then some .misplacedRest else none

/-- What is left of patterns beyond a place that they share, each with its value. -/
abbrev Tails (α : Type) := List (List Piece × α)

/-- What a search comes to. -/
inductive Outcome (α : Type) where
  /-- The path follows a pattern; `parts` is what the open parts stand for. -/
  | found (value : α) (parts : List (List Char))
  /-- Open parts that were passed by may still do. -/
  | missed
  /-- No pattern will do. -/
  | ended

section

variable {α : Type}

/-- The fixed text that a pattern begins with. -/
def fixedText : List Piece → List Char
  | .char c :: rest => c :: fixedText rest
  | _ => []

/-- What two texts both begin with. -/
def commonText : List Char → List Char → List Char
  | a :: as, b :: bs => if a = b then a :: commonText as bs else []
  | _, _ => []

/-- The fixed text that all the patterns begin with. -/
def Tails.sharedText : Tails α → List Char
  | [] => []
  | (first, _) :: others => others.foldl (fun text t => commonText text (fixedText t.1)) (fixedText first)

/-- The patterns behind their first piece, as far as that is the given one. -/
def Tails.behind (tails : Tails α) (piece : Piece) : Tails α :=
  tails.filterMap fun t =>
    match t.1 with
    | first :: rest => if first = piece then some (rest, t.2) else none
    | [] => none

/-- The value of the pattern that ends here. -/
def Tails.here? (tails : Tails α) : Option α := (tails.find? (·.1.isEmpty)).map (·.2)

/-- The patterns that go on. -/
def Tails.onward (tails : Tails α) : Tails α := tails.filter (!·.1.isEmpty)

/-- Where a new pattern can not be told apart from others: the patterns that part, if at all, only in what an
    open part stands for. -/
def clash? : List Piece → Tails α → Option (Tails α)
  | [], tails => if tails.here?.isSome then some tails else none
  | .char c :: rest, tails => clash? rest (tails.behind (.char c))
  | .segment :: rest, tails =>
    let others := tails.behind .rest
    if others.isEmpty then clash? rest (tails.behind .segment) else some others
  | .rest :: _, tails =>
    let others := tails.behind .segment ++ tails.behind .rest
    if others.isEmpty then none else some others

/-- The character that is there most often; of several, the one that came to be so first. -/
def leading (cs : List Char) : Option Char :=
  let note (seen : List Char × Option Char) (c : Char) : List Char × Option Char :=
    let before := c :: seen.1
    match seen.2 with
    | none => (before, some c)
    | some first => (before, some (if before.count first < before.count c then c else first))
  (cs.foldl note ([], none)).2

/-- The piece that patterns go on with first: fixed text before an open part, the most used before others. -/
def Tails.leadingPiece (tails : Tails α) : Piece :=
  let chars := tails.filterMap fun t =>
    match t.1 with
    | .char c :: _ => some c
    | _ => none
  match leading chars with
  | some c => .char c
  | none => if (tails.behind .segment).isEmpty then .rest else .segment

/-- The pattern that is told in place of all of them: the one at the end of what they go on with first. -/
def Tails.representative? : Nat → Tails α → Option α
  | 0, tails => tails.here?
  | fuel + 1, tails =>
    let onward := tails.onward
    if onward.isEmpty then tails.here? else Tails.representative? fuel (onward.behind onward.leadingPiece)

/-- The pattern that a new one can not be told apart from. -/
def clashing? (patterns : List (String × α)) (pattern : String) : Option α := do
  let others ← clash? (pieces pattern) (patterns.map fun p => (pieces p.1, p.2))
  others.representative? ((others.map (·.1.length)).foldl max 0)

/-- A dead end. A path that comes down to a slash is not tried in another way. -/
def deadEnd (path : List Char) : Outcome α := if path = ['/'] then .ended else .missed

/-- Whether just the slash at the end of the path is too much or too little for a pattern that is there. -/
def endsAtSlash (tails : Tails α) (path : List Char) (onward : Tails α) : Bool :=
  path = ['/'] && tails.here?.isSome && onward.sharedText ≠ ['/']

/-- Searches the patterns for a path. `parts` is what the open parts so far stand for, last first. -/
def searchFrom : Nat → Tails α → List (List Char) → List Char → Outcome α
  | 0, _, _, _ => .missed
  | fuel + 1, tails, parts, path =>
    let text := tails.sharedText
    let beyond : Tails α := tails.map fun t => (t.1.drop text.length, t.2)
    if !text.isPrefixOf path then
      if path ++ ['/'] = text && beyond.here?.isSome then .ended else deadEnd path
    else
      match path.drop text.length with
      | [] =>
        match beyond.here? with
        | some value => .found value parts.reverse
        | none => deadEnd path
      | c :: more =>
        let left := c :: more
        let part := left.takeWhile (· ≠ '/')
        let after := left.dropWhile (· ≠ '/')
        let segments := beyond.behind .segment
        let openly : Outcome α :=
          match (beyond.behind .rest).here? with
          | some value => .found value (left :: parts).reverse
          | none =>
            if segments.isEmpty || part.isEmpty then deadEnd left
            else if after.isEmpty then
              match segments.here? with
              | some value => .found value (part :: parts).reverse
              | none =>
                if segments.sharedText = ['/'] && (segments.behind (.char '/')).here?.isSome then .ended else .missed
            else if segments.onward.isEmpty then (if after = ['/'] then .ended else .missed)
            else if endsAtSlash segments after segments.onward then .ended
            else searchFrom fuel segments.onward (part :: parts) after
        let fixed : Tails α := beyond.filter (·.1.head? = some (.char c))
        if fixed.isEmpty then openly
        else if endsAtSlash beyond left fixed then .ended
        else
          match searchFrom fuel fixed parts left with
          | .missed => openly
          | outcome => outcome

/-- The value of the pattern that a path follows, and what the open parts of the pattern stand for. Every
    second step of the search goes forward in the path. -/
def search (patterns : List (String × α)) (path : String) : Option (α × List String) :=
  let tails : Tails α := patterns.map fun p => (pieces p.1, p.2)
  match searchFrom (2 * path.length + 2) tails [] path.toList with
  | .found value parts => some (value, parts.map String.ofList)
  | _ => none

end

end Turnstile.Http.Pattern
