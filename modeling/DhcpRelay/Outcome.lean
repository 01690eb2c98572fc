import DhcpRelay.Text.Numeral

/-!
# Outcomes

What becomes of a datagram that a relay receives. A drop has a reason; all reasons but an unknown
receiver of a reply are counted on an interface.
-/

namespace DhcpRelay

/-- Why a message is dropped. -/
inductive DropReason where
  | notActive
  | noAddress
  | hopLimit
  | missingServerId
  | noServerReachable
  /-- No request of the client of a reply has been seen. -/
  | unknownClient
  /-- No message of the peer of a reply has been seen. -/
  | unknownPeer
  | egressNotActive
  | egressNoAddress
  | handleUnavailable
  | linkSendFailed
  | sendFailed
  deriving DecidableEq, Repr

/-- The wording of a reason. -/
def DropReason.text : DropReason → String
  | .notActive => "interface not active"
  | .noAddress => "interface has no IPv4 address"
  | .hopLimit => "hop count limit reached"
  | .missingServerId => "missing server identifier"
  | .noServerReachable => "no server reachable"
  | .unknownClient => "unknown client"
  | .unknownPeer => "unknown peer"
  | .egressNotActive => "egress interface not active"
  | .egressNoAddress => "egress interface has no IPv4 address"
  | .handleUnavailable => "link handle unavailable"
  | .linkSendFailed => "link send failed"
  | .sendFailed => "send failed"

/-- What became of a datagram. -/
inductive Outcome where
  | relayed (count : Nat)
  | delivered (interface : String)
  | dropped (reason : DropReason)
  | ignored
  deriving DecidableEq, Repr

end DhcpRelay
