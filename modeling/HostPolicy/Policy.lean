import HostPolicy.Endpoint
import HostPolicy.Log
import HostPolicy.RuleSet

/-!
Policies: what it means for an address that the rules accept it. An admission policy says who may
connect, a bypass policy what skips a hop; both decide alike, and differ in what they report.
-/

namespace HostPolicy

inductive Kind where
  | admission
  | bypass
  deriving DecidableEq, Repr

namespace Kind

def name : Kind → String
  | admission => "admission"
  | bypass => "bypass"

def label : Kind → String
  | admission => "Admission"
  | bypass => "Bypass"

end Kind

/-- A reversed policy says yes to what the rules do not accept. -/
structure Policy where
  kind : Kind
  reversed : Bool
  deriving DecidableEq, Repr

namespace Policy

/-- The answer for an address, by the rules for its host; an empty address is always refused. -/
def decide (p : Policy) (rules : RuleSet) (address : String) : Bool :=
  if address = "" then false else rules.accepts (Endpoint.host address) != p.reversed

/-- An admission policy reports refusals, a bypass policy consents. -/
def report (p : Policy) (rules : RuleSet) (address : String) : Option LogRecord :=
  let host : String × LogValue := ("addr", .text (Endpoint.host address))
  match p.kind, p.decide rules address with
  | .admission, false =>
    if address = "" then some ⟨.debug, "admission: empty address is denied", []⟩
    else some ⟨.debug, "admission: address is denied", [host]⟩
  | .bypass, true => some ⟨.debug, "bypass: address bypasses routing", [host]⟩
  | _, _ => none

end Policy

end HostPolicy
