import HostPolicy.Error

/-!
Key-value stores that hold collections of rules, as sets of lines or as hashes of fields with
values.
-/

namespace HostPolicy

/-- A store answers reads also after it was closed, and counts how often that was asked. -/
structure Store where
  sets : List (String × List String)
  hashes : List (String × List (String × String))
  down : Option String
  closeError : Option String
  closes : Nat
  deriving DecidableEq, Repr

namespace Store

def empty : Store := ⟨[], [], none, none, 0⟩

def whileUp {α : Type} (s : Store) (value : α) : Except SourceError α :=
  match s.down with
  | some reason => .error (.store reason)
  | none => .ok value

def members (s : Store) (key : String) : Except SourceError (List String) :=
  s.whileUp ((s.sets.lookup key).getD [])

def entries (s : Store) (key : String) : Except SourceError (List (String × String)) :=
  s.whileUp ((s.hashes.lookup key).getD [])

/-- What is given anew of a store; the rest of it stays. -/
structure Update where
  sets : List (String × List String)
  hashes : List (String × List (String × String))
  down : Option (Option String)
  closeError : Option (Option String)
  deriving DecidableEq, Repr

/-- A collection that is given anew takes the place of the one with its key. -/
def update (s : Store) (u : Update) : Store :=
  { s with
    sets := u.sets ++ s.sets
    hashes := u.hashes ++ s.hashes
    down := u.down.getD s.down
    closeError := u.closeError.getD s.closeError }

def close (s : Store) : Store × Option SourceError :=
  ({ s with closes := s.closes + 1 }, s.closeError.map .store)

end Store

end HostPolicy
