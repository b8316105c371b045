import HostPolicy.Json.Skip

/-!
Records: values with named fields, given as an object with a member for each field or as a list
of the fields in order. Members with other names are skipped, and no field is given twice. While
an object is read, what is known of the fields is kept in a draft.
-/

namespace HostPolicy.Json

/-- The text of the next key of an object, `first` if none was read before, from behind its
opening quote, or `none` at the end of the object, which is left unread. -/
def nextKey (first : Bool) (cs : List Char) : Except Fault (Option (List Char) × List Char) :=
  match skipSpace cs with
  | [] => fail .endInObject []
  | '\x7d' :: rest => .ok (none, '\x7d' :: rest)
  | c :: rest =>
    if first then
      if c = '"' then .ok (some rest, rest) else failPast .keyNotText (c :: rest)
    else if c = ',' then
      match skipSpace rest with
      | [] => fail .endInValue []
      | '"' :: rest => .ok (some rest, rest)
      | '\x7d' :: rest => failPast .trailingComma ('\x7d' :: rest)
      | rest => failPast .keyNotText rest
    else failPast .expectedObjectGoesOn (c :: rest)

/-- The key of an object that has to have exactly one, from behind the opening brace. -/
def readOnlyKey (cs : List Char) : Except Fault (String × List Char) := do
  match skipSpace cs with
  | [] => fail .endInObject []
  | '"' :: rest =>
    let (name, rest) ← readQuoted rest
    return (String.ofList name, rest)
  | '\x7d' :: rest => failPast .expectedValue ('\x7d' :: rest)
  | cs => failPast .keyNotText cs

def closeObject (cs : List Char) : Except Fault (List Char) :=
  match skipSpace cs with
  | '\x7d' :: rest => .ok rest
  | ',' :: rest => failPast .trailingComma (',' :: rest)
  | [] => fail .endInObject []
  | cs => failPast .trailingCharacters cs

/-- Where an object is complained about as a whole: behind what could be its end. -/
def afterObject (cs : List Char) : List Char :=
  match skipSpace cs with
  | '\x7d' :: rest => rest
  | cs => cs

/-- Reads the value of a member, from behind its key, into a draft. -/
def readMember {δ α : Type} (name : String) (given : δ → Option α) (give : δ → α → δ)
    (read : List Char → Except Fault (α × List Char)) (draft : δ) (cs : List Char) :
    Except Fault (δ × List Char) :=
  if (given draft).isSome then fail (.duplicateField name) (afterObject cs)
  else do
    let (value, rest) ← read (← readColon cs)
    return (give draft value, rest)

def skipMember {δ : Type} (draft : δ) (cs : List Char) : Except Fault (δ × List Char) := do
  return (draft, ← skipValue (← readColon cs))

/-- The members of an object up to its end, which is left unread; `member` reads the one with the
given name. Every member takes a character, so `fuel` is the length of the text. -/
def readMembers {δ : Type} (member : String → δ → List Char → Except Fault (δ × List Char)) :
    Nat → Bool → δ → List Char → Except Fault (δ × List Char)
  | 0, _, _, cs => fail .expectedValue cs
  | fuel + 1, first, draft, cs => do
    match ← nextKey first cs with
    | (none, cs) => return (draft, cs)
    | (some cs, _) =>
      let (name, cs) ← readQuoted cs
      let (draft, cs) ← member (String.ofList name) draft cs
      readMembers member fuel false draft cs

/-- A field of a record that is given as a list. -/
def readField {α : Type} (first : Bool) (read : List Char → Except Fault (α × List Char))
    (cs : List Char) : Except Fault (Option α × List Char) := do
  match ← nextElement first cs with
  | (none, cs) => return (none, cs)
  | (some cs, _) =>
    let (value, cs) ← read cs
    return (some value, cs)

/-- A record, as an object or as a list. `finish` makes it of the draft of an object, and
`elements` reads the fields in order; both leave the end unread. -/
def readRecord {δ ρ : Type} (expected : String)
    (member : String → δ → List Char → Except Fault (δ × List Char)) (draft : δ)
    (finish : δ → Except Complaint ρ)
    (elements : List Char → Except Fault (Except Complaint ρ × List Char)) (cs : List Char) :
    Except Fault (ρ × List Char) := do
  match ← valueText cs with
  | '\x7b' :: rest =>
    let (draft, rest) ← readMembers member (rest.length + 1) true draft rest
    match finish draft with
    | .ok record => return (record, ← closeObject rest)
    | .error complaint => fail complaint (afterObject rest)
  | '[' :: rest =>
    match ← elements rest with
    | (.ok record, rest) => return (record, ← closeList rest)
    | (.error complaint, rest) => fail complaint (afterList rest)
  | cs => mistyped expected cs

/-- The whole text is one value, with nothing but space around it. -/
def readWhole {α : Type} (read : List Char → Except Fault (α × List Char)) (cs : List Char) :
    Except Fault α := do
  let (value, rest) ← read cs
  match skipSpace rest with
  | [] => return value
  | rest => failPast .trailingCharacters rest

end HostPolicy.Json
