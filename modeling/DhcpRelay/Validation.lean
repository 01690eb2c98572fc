import DhcpRelay.Tracker

/-!
# Validation

The rules that a configuration record has to meet before it is applied. A record that breaks one is
rejected before anything is changed, with the rule that was broken and what broke it (`Rejection`).
Each check answers with the first rule that is broken: the routing instance before the hop limit,
servers in list order before upstream interfaces in list order, a repeated upstream interface before
an unknown one.
-/

namespace DhcpRelay

/-! ## Rejections -/

/-- Why a configuration record is not applied. -/
inductive Rejection where
  /-- The routing instance is not the default one. -/
  | foreignVrf (vrf : String)
  | badServer (family : Family) (address : String)
  | repeatedUpstream (name : String)
  /-- An upstream interface has no link-local address. -/
  | unknownUpstream (name : String)
  | unknownInterface (family : Family) (name : String)
  /-- The limit on passed relays is zero or too large. -/
  | hopCountLimit (limit : UInt8)
  deriving DecidableEq, Repr

/-- The wording of a rejection. -/
def Rejection.message : Rejection → String
  | .foreignVrf vrf => "invalid vrf '" ++ vrf ++ "': only 'default' is supported"
  | .badServer family address => "invalid " ++ family.name ++ " server address '" ++ address ++ "'"
  | .repeatedUpstream name => "upstream interface '" ++ name ++ "' is listed more than once"
  | .unknownUpstream name => "upstream interface '" ++ name ++ "' has no link-local address"
  | .unknownInterface family name =>
    family.name ++ " interface '" ++ name ++ "' does not exist"
  | .hopCountLimit limit =>
    "hop count limit " ++ Numeral.decimal limit.toNat ++ " out of range 1..=32"

/-! ## Checks -/

/-- Checks a global record. -/
def GlobalConfig.validate (c : GlobalConfig) : Except Rejection Unit :=
  if c.vrf ≠ defaultVrf then .error (.foreignVrf c.vrf)
  else if c.hopCountLimit = 0 ∨ maxHopCount < c.hopCountLimit then
    .error (.hopCountLimit c.hopCountLimit)
  else .ok ()

/-- Whether a relay of the family can send to the server of this text: the text is an address of
the family, and for IPv6 neither IPv4-mapped nor link-local. -/
def Family.acceptsServer : Family → String → Bool
  | .v4, address => (V4Address.parse? address).isSome
  | .v6, address =>
    (V6Address.parse? address).any fun a => a.mappedV4?.isNone && !a.isLinkLocal

/-- Checks the text of a server's address. -/
def Family.validateServer (family : Family) (address : String) : Except Rejection Unit :=
  if family.acceptsServer address then .ok () else .error (.badServer family address)

/-- Checks servers in their order. -/
def Family.validateServers (family : Family) : List String → Except Rejection Unit
  | [] => .ok ()
  | address :: rest => do
    family.validateServer address
    family.validateServers rest

namespace Tracker

/-- Checks upstream interfaces in their order, after those of `seen`: each stands once and has a
link-local address. -/
def validateUpstreamsAfter (t : Tracker) (seen : List String) : List String → Except Rejection Unit
  | [] => .ok ()
  | name :: rest =>
    if name ∈ seen then .error (.repeatedUpstream name)
    else if (t.linkLocal.find? name).isNone then .error (.unknownUpstream name)
    else t.validateUpstreamsAfter (name :: seen) rest

/-- Checks upstream interfaces in their order. -/
def validateUpstreams (t : Tracker) (names : List String) : Except Rejection Unit :=
  t.validateUpstreamsAfter [] names

/-- Checks an interface record. -/
def validateInterface (t : Tracker) (family : Family) (c : InterfaceConfig) :
    Except Rejection Unit := do
  family.validateServers c.servers
  match family with
  | .v4 => .ok ()
  | .v6 => t.validateUpstreams c.upstreams

end Tracker

end DhcpRelay
