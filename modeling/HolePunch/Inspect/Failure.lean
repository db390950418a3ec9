import HolePunch.Address.Printer
import HolePunch.Error
import HolePunch.Inspect.HexText
import HolePunch.Text.Duration

/-!
# Failures of the commands

Why a command gave up. Each failure has a line of its own, which says what was being done, and the
causes behind it.
-/

namespace HolePunch

inductive Failure where
  | notHex (cause : HexText.Error)
  | undecodable (cause : ProtocolError)
  | undecodableAt (number : Nat) (cause : ReadError)
  | unencodable (kind : Kind) (cause : ProtocolError)
  | unopened (path : String) (cause : String)
  /-- There is no listening at the address. -/
  | unbound (address : SocketAddr) (cause : String)
  /-- There is no socket to send from. -/
  | unboundLocal (cause : String)
  | unsent (target : SocketAddr) (cause : String)
  | unreceived (cause : String)
  | noReply (target : SocketAddr) (waitedMs : Nat)
  | badReply (peer : SocketAddr) (cause : ProtocolError)
  deriving DecidableEq, Repr

namespace Failure

def message : Failure → String
  | .notHex _ => "Input is not valid hex"
  | .undecodable _ => "Failed to decode message"
  | .undecodableAt number _ => s!"Failed to decode message #{number}"
  | .unencodable kind _ => s!"Failed to encode {kind.name}"
  | .unopened path _ => s!"Failed to open {path}"
  | .unbound address _ => s!"Failed to bind UDP socket on {String.ofList address.text}"
  | .unboundLocal _ => "Failed to bind local UDP socket"
  | .unsent target _ => s!"Failed to send to {String.ofList target.text}"
  | .unreceived _ => "Failed to receive datagram"
  | .noReply target waitedMs =>
    s!"No reply from {String.ofList target.text} within {Text.duration waitedMs}"
  | .badReply peer _ => s!"Bad reply from {String.ofList peer.text}"

/-- What went wrong while it was being done, the nearest cause first. -/
def causes : Failure → List String
  | .notHex cause => [cause.message]
  | .undecodable cause | .unencodable _ cause | .badReply _ cause => [cause.message]
  | .undecodableAt _ cause => cause.message :: cause.source?.toList
  | .unopened _ cause | .unbound _ cause | .unboundLocal cause | .unsent _ cause
  | .unreceived cause => [cause]
  | .noReply .. => []

end Failure

end HolePunch
