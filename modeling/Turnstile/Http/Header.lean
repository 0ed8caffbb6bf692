/-!
Header fields: a name in lower case and a value of octets.

A list of fields keeps every field. Fields of one name are told apart by their order only.
-/

namespace Turnstile.Http

/-- One header field. -/
structure Field where
  name : String
  value : List UInt8
  deriving DecidableEq, Repr

/-- Characters that a field name is made of. -/
def isNameChar (c : Char) : Bool :=
  c.isAlphanum || "!#$%&'*+-.^_`|~".toList.contains c

/-- A field name in its lower-case form, if the text is one. -/
def fieldName? (s : String) : Option String :=
  let cs := s.toList
  if !cs.isEmpty && cs.all isNameChar then some (String.ofList (cs.map Char.toLower)) else none

/-- Octets that a field value is made of: no controls but the tab. -/
def isValueOctet (b : UInt8) : Bool := (32 ≤ b && b ≠ 127) || b = 9

/-- Octets that show as text: visible ASCII, the space and the tab. -/
def isTextOctet (b : UInt8) : Bool := (32 ≤ b && b < 127) || b = 9

/-- A value as text, if it is made of text octets. -/
def valueText? (value : List UInt8) : Option String :=
  if value.all isTextOctet then some (String.ofList (value.map fun b => Char.ofNat b.toNat)) else none

/-- The octets of a text in UTF-8. -/
def octetsOf (s : String) : List UInt8 := s.toUTF8.data.toList

/-- A field from text, if name and value may stand in a header. -/
def Field.ofText? (name value : String) : Option Field := do
  let name ← fieldName? name
  let value := octetsOf value
  if value.all isValueOctet then some ⟨name, value⟩ else none

/-- Header fields in the order in which they were added. -/
structure Headers where
  fields : List Field
  deriving DecidableEq, Repr, Inhabited

namespace Headers

def empty : Headers := ⟨[]⟩

/-- The value of the first field of that name. -/
def get? (h : Headers) (name : String) : Option (List UInt8) :=
  (h.fields.find? (·.name == name)).map (·.value)

def append (h : Headers) (f : Field) : Headers := ⟨h.fields ++ [f]⟩

def remove (h : Headers) (name : String) : Headers := ⟨h.fields.filter (·.name != name)⟩

/-- Sets the only field of that name. -/
def set (h : Headers) (name value : String) : Headers := (h.remove name).append ⟨name, octetsOf value⟩

/-- The same fields with those of one name together, in the order in which the names first appear. -/
def groupedFrom : Nat → List Field → List Field
  | 0, fields => fields
  | _, [] => []
  | fuel + 1, f :: rest =>
    f :: rest.filter (·.name == f.name) ++ groupedFrom fuel (rest.filter (·.name != f.name))

def grouped (h : Headers) : List Field := groupedFrom h.fields.length h.fields

end Headers

end Turnstile.Http
