import HostPolicy.Config.Reader
import HostPolicy.Config.Writer
import HostPolicy.Engine.Log
import HostPolicy.Engine.Run
import HostPolicy.Proofs.Engine.Move
import HostPolicy.Proofs.Journal.Conduct
import HostPolicy.Proofs.Engine.Order
import HostPolicy.Proofs.Engine.Conducted
import HostPolicy.Proofs.Journal.Rounds
import HostPolicy.Proofs.Engine.SourceCalls
import HostPolicy.Proofs.Engine.Progress
import HostPolicy.Proofs.Engine.Provenance
import HostPolicy.Proofs.Engine.Serial
import HostPolicy.Proofs.Engine.Closing
import HostPolicy.Proofs.Engine.Reach
import HostPolicy.Proofs.Engine.Scripted
import HostPolicy.Proofs.Text.Utf8
import HostPolicy.Proofs.RuleText
import HostPolicy.Proofs.RuleSet
import HostPolicy.Proofs.Engine.Loading
import HostPolicy.Proofs.Engine.Load
import HostPolicy.Proofs.Engine.StaticRules
import HostPolicy.Proofs.Engine.Noninterference
import HostPolicy.Proofs.Engine.FixedRules
import HostPolicy.Proofs.Text.Digits
import HostPolicy.Proofs.Address.Literal
import HostPolicy.Proofs.Endpoint
import HostPolicy.Proofs.Engine.Decision
import HostPolicy.Proofs.Address.LetterCase
import HostPolicy.Proofs.LetterCase
import HostPolicy.Proofs.DomainSet
import HostPolicy.Proofs.Engine.Pace
import HostPolicy.Proofs.Engine.ClosingTime
import HostPolicy.Proofs.Json.Text
import HostPolicy.Proofs.Json.Number
import HostPolicy.Proofs.Json.RoundTrip
import HostPolicy.Proofs.Config.RoundTrip
import HostPolicy.Proofs.Glob
import HostPolicy.Proofs.Address.Block
import HostPolicy.Proofs.Address.Groups
import HostPolicy.Proofs.Address.Printed
import HostPolicy.Proofs.MappedBlock
import HostPolicy.Proofs.Pattern
import HostPolicy.Proofs.OwnText
import HostPolicy.Proofs.RuleLines
import HostPolicy.Proofs.RuleCounts
import HostPolicy.Proofs.Engine.CloseReturns
import HostPolicy.Proofs.Engine.Releasing
import HostPolicy.Proofs.Engine.ReloadTask
import HostPolicy.Proofs.Json.Grammar
import HostPolicy.Proofs.Json.Skip
import HostPolicy.Proofs.Json.Meaning
import HostPolicy.Proofs.Json.Numeral
import HostPolicy.Proofs.Json.Members
import HostPolicy.Proofs.Json.Sound
import HostPolicy.Proofs.Json.SoundRecord
import HostPolicy.Proofs.Json.Rewriting
import HostPolicy.Proofs.Config.Meaning
import HostPolicy.Proofs.Config.Accepted
import HostPolicy.Proofs.Config.Spellings
