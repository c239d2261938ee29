import Erez.Daemon.UpdateValidation

/-! # BGP messages

The messages that two speakers exchange, with what the state machine and the codec
read of them. An UPDATE message is the daemon's.
-/

namespace Erez.Speaker

open Daemon

/-! ## Address families -/

/-- The pairs of numbers that have a name of their own. -/
inductive AddressType where
  | ipv4Unicast
  | ipv4Multicast
  | ipv4MplsLabeledVpn
  | ipv4MulticastBgpMplsVpn
  | ipv4Bgp4over6
  | ipv4FlowSpec
  | ipv4FlowSpecL3Vpn
  | ipv4NlriMplsLabels
  | ipv6Unicast
  | ipv6Multicast
  | ipv6MplsLabeledVpn
  | ipv6MulticastBgpMplsVpn
  | ipv6Bgp6over4
  | ipv6FlowSpec
  | ipv6FlowSpecL3Vpn
  | ipv6NlriMplsLabels
  | l2VpnBgpEvpn
  | l2VpnVpls
  | bgpLs
  | bgpLsVpn
  | routeTargetConstrains
  deriving DecidableEq

namespace AddressType

def addressFamily : AddressType → UInt16
  | ipv4Unicast | ipv4Multicast | ipv4MplsLabeledVpn | ipv4MulticastBgpMplsVpn | ipv4Bgp4over6
  | ipv4FlowSpec | ipv4FlowSpecL3Vpn | ipv4NlriMplsLabels | routeTargetConstrains => 1
  | ipv6Unicast | ipv6Multicast | ipv6MplsLabeledVpn | ipv6MulticastBgpMplsVpn | ipv6Bgp6over4
  | ipv6FlowSpec | ipv6FlowSpecL3Vpn | ipv6NlriMplsLabels => 2
  | l2VpnBgpEvpn | l2VpnVpls => 25
  | bgpLs | bgpLsVpn => 16388

def subsequentAddressFamily : AddressType → UInt8
  | ipv4Unicast | ipv6Unicast => 1
  | ipv4Multicast | ipv6Multicast => 2
  | ipv4NlriMplsLabels | ipv6NlriMplsLabels => 4
  | l2VpnVpls => 65
  | ipv4Bgp4over6 => 67
  | ipv6Bgp6over4 => 68
  | l2VpnBgpEvpn => 70
  | bgpLs => 71
  | bgpLsVpn => 72
  | ipv4MplsLabeledVpn | ipv6MplsLabeledVpn => 128
  | ipv4MulticastBgpMplsVpn | ipv6MulticastBgpMplsVpn => 129
  | routeTargetConstrains => 132
  | ipv4FlowSpec | ipv6FlowSpec => 133
  | ipv4FlowSpecL3Vpn | ipv6FlowSpecL3Vpn => 134

def fromAfiSafi (afi : UInt16) (safi : UInt8) : Option AddressType :=
  match afi.toNat, safi.toNat with
  | 1, 1 => some ipv4Unicast
  | 1, 2 => some ipv4Multicast
  | 1, 128 => some ipv4MplsLabeledVpn
  | 1, 129 => some ipv4MulticastBgpMplsVpn
  | 1, 67 => some ipv4Bgp4over6
  | 1, 133 => some ipv4FlowSpec
  | 1, 134 => some ipv4FlowSpecL3Vpn
  | 1, 4 => some ipv4NlriMplsLabels
  | 2, 1 => some ipv6Unicast
  | 2, 2 => some ipv6Multicast
  | 2, 128 => some ipv6MplsLabeledVpn
  | 2, 129 => some ipv6MulticastBgpMplsVpn
  | 2, 68 => some ipv6Bgp6over4
  | 2, 133 => some ipv6FlowSpec
  | 2, 134 => some ipv6FlowSpecL3Vpn
  | 2, 4 => some ipv6NlriMplsLabels
  | 25, 70 => some l2VpnBgpEvpn
  | 25, 65 => some l2VpnVpls
  | 16388, 71 => some bgpLs
  | 16388, 72 => some bgpLsVpn
  | 1, 132 => some routeTargetConstrains
  | _, _ => none

theorem fromAfiSafi_eq (addrType : AddressType) :
    fromAfiSafi addrType.addressFamily addrType.subsequentAddressFamily = some addrType := by
  cases addrType <;> rfl

theorem isDefined (addrType : AddressType) :
    AddressFamily.isDefined addrType.addressFamily = true ∧
      SubsequentAddressFamily.isDefined addrType.subsequentAddressFamily = true := by
  cases addrType <;> decide +kernel

end AddressType

/-! ## OPEN -/

structure GracefulRestartAddressFamily where
  forwardingState : Bool
  addressType : AddressType
  deriving DecidableEq

structure GracefulRestartCapability where
  restart : Bool
  gracefulNotification : Bool
  time : UInt16
  addressFamilies : List GracefulRestartAddressFamily
  deriving DecidableEq

structure AddPathAddressFamily where
  addressType : AddressType
  send : Bool
  receive : Bool
  deriving DecidableEq

structure ExtendedNextHopEncoding where
  addressType : AddressType
  nextHopAfi : {afi : UInt16 // AddressFamily.isDefined afi = true}
  deriving DecidableEq

structure MultipleLabel where
  addressType : AddressType
  count : UInt8
  deriving DecidableEq

inductive BgpRoleValue where
  | provider
  | customer
  | rs
  | rsClient
  | peer
  deriving DecidableEq

/-- The codes 239 to 254. -/
def ExperimentalCapabilityCode.isDefined (code : UInt8) : Bool :=
  239 ≤ code && code ≤ 254

inductive BgpCapability where
  | multiProtocolExtensions (addressType : AddressType)
  | routeRefresh
  | enhancedRouteRefresh
  | ciscoRouteRefresh
  | gracefulRestart (value : GracefulRestartCapability)
  | addPath (addressFamilies : List AddPathAddressFamily)
  | extendedMessage
  | multipleLabels (labels : List MultipleLabel)
  | bgpRole (role : BgpRoleValue)
  | fourOctetAs (asn4 : UInt32)
  | extendedNextHopEncoding (encodings : List ExtendedNextHopEncoding)
  | experimental (code : {code : UInt8 // ExperimentalCapabilityCode.isDefined code = true})
      (value : List UInt8)
  | unrecognized (code : UInt8) (value : List UInt8)
  deriving DecidableEq

inductive BgpOpenMessageParameter where
  | capabilities (capabilities : List BgpCapability)
  deriving DecidableEq

/-- The version is always 4. -/
structure BgpOpenMessage where
  myAs : UInt16
  holdTime : UInt16
  bgpId : Ipv4Addr
  params : List BgpOpenMessageParameter
  deriving DecidableEq

def BgpCapability.asn4? : BgpCapability → Option UInt32
  | fourOctetAs asn4 => some asn4
  | _ => none

namespace BgpOpenMessage

def capabilities (message : BgpOpenMessage) : List BgpCapability :=
  message.params.flatMap fun
    | .capabilities capabilities => capabilities

/-- The last of the four-octet numbers, or the two octets of the header. -/
def myAsn4 (message : BgpOpenMessage) : UInt32 :=
  ((message.capabilities.filterMap BgpCapability.asn4?).getLast?).getD message.myAs.toUInt32

end BgpOpenMessage

/-! ## NOTIFICATION and ROUTE-REFRESH -/

inductive MessageHeaderError where
  | unspecific (value : List UInt8)
  | connectionNotSynchronized (value : List UInt8)
  | badMessageLength (value : List UInt8)
  | badMessageType (value : List UInt8)
  deriving DecidableEq

inductive OpenMessageError where
  | unspecific (value : List UInt8)
  | unsupportedVersionNumber (value : List UInt8)
  | badPeerAs (value : List UInt8)
  | badBgpIdentifier (value : List UInt8)
  | unsupportedOptionalParameter (value : List UInt8)
  | unacceptableHoldTime (value : List UInt8)
  | unsupportedCapability (value : List UInt8)
  | roleMismatch (value : List UInt8)
  deriving DecidableEq

inductive UpdateMessageError where
  | unspecific (value : List UInt8)
  | malformedAttributeList (value : List UInt8)
  | unrecognizedWellKnownAttribute (value : List UInt8)
  | missingWellKnownAttribute (value : List UInt8)
  | attributeFlagsError (value : List UInt8)
  | attributeLengthError (value : List UInt8)
  | invalidOriginAttribute (value : List UInt8)
  | invalidNextHopAttribute (value : List UInt8)
  | optionalAttributeError (value : List UInt8)
  | invalidNetworkField (value : List UInt8)
  | malformedAsPath (value : List UInt8)
  deriving DecidableEq

inductive HoldTimerExpiredError where
  | unspecific (subCode : UInt8) (value : List UInt8)
  deriving DecidableEq

inductive FiniteStateMachineError where
  | unspecific (value : List UInt8)
  | receiveUnexpectedMessageInOpenSentState (value : List UInt8)
  | receiveUnexpectedMessageInOpenConfirmState (value : List UInt8)
  | receiveUnexpectedMessageInEstablishedState (value : List UInt8)
  deriving DecidableEq

inductive CeaseError where
  | maximumNumberOfPrefixesReached (value : List UInt8)
  | administrativeShutdown (value : List UInt8)
  | peerDeConfigured (value : List UInt8)
  | administrativeReset (value : List UInt8)
  | connectionRejected (value : List UInt8)
  | otherConfigurationChange (value : List UInt8)
  | connectionCollisionResolution (value : List UInt8)
  | outOfResources (value : List UInt8)
  | hardReset (value : List UInt8)
  | bfdDown (value : List UInt8)
  deriving DecidableEq

inductive RouteRefreshError where
  | invalidMessageLength (value : List UInt8)
  deriving DecidableEq

inductive BgpNotificationMessage where
  | messageHeaderError (error : MessageHeaderError)
  | openMessageError (error : OpenMessageError)
  | updateMessageError (error : UpdateMessageError)
  | holdTimerExpiredError (error : HoldTimerExpiredError)
  | finiteStateMachineError (error : FiniteStateMachineError)
  | ceaseError (error : CeaseError)
  | routeRefreshError (error : RouteRefreshError)
  deriving DecidableEq

inductive RouteRefreshSubcode where
  | normalRequest
  | beginningOfRouteRefresh
  | endOfRouteRefresh
  deriving DecidableEq

structure BgpRouteRefreshMessage where
  addressType : AddressType
  operationType : RouteRefreshSubcode
  deriving DecidableEq

inductive BgpMessage where
  | openMsg (message : BgpOpenMessage)
  | update (message : BgpUpdateMessage)
  | notification (message : BgpNotificationMessage)
  | keepAlive
  | routeRefresh (message : BgpRouteRefreshMessage)
  deriving DecidableEq

end Erez.Speaker
