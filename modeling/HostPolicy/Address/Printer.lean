import HostPolicy.Address.Basic

/-!
Address literals in their shortest form: small letters, no leading zeros, and the first of the
longest runs of at least two zero groups left out. A mapped address shows the IPv4 address that it
stands for.
-/

namespace HostPolicy.Address

open Text

def v4Chars (bits : BitVec 32) : List Char :=
  ['.'].intercalate ((octets bits).map decimal)

/-- The length of the run of zero groups that starts at `i`. -/
def zeroRun (groups : List Nat) (i : Nat) : Nat :=
  ((groups.drop i).takeWhile (· == 0)).length

/-- Where the first of the longest runs of zero groups starts. -/
def longestRun (groups : List Nat) : Nat :=
  (List.range groups.length).foldl
    (fun best i => if zeroRun groups best < zeroRun groups i then i else best) 0

def groupChars (groups : List Nat) : List Char :=
  [':'].intercalate (groups.map hexadecimal)

def v6Chars (bits : BitVec 128) : List Char :=
  match mapped? bits with
  | some low => [':', ':', 'f', 'f', 'f', 'f', ':'] ++ v4Chars low
  | none =>
    let gs := groups bits
    let i := longestRun gs
    let run := zeroRun gs i
    if 1 < run then groupChars (gs.take i) ++ [':', ':'] ++ groupChars (gs.drop (i + run))
    else groupChars gs

def chars : Address → List Char
  | v4 bits => v4Chars bits
  | v6 bits => v6Chars bits

def text (address : Address) : String :=
  String.ofList address.chars

end HostPolicy.Address
