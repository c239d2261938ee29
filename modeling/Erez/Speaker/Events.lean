import Erez.Speaker.Message
import Erez.Wire.Nlri

/-! # Parsing errors and events

What goes wrong while a message is read decides what the state machine gets to see:
an event of its own where the message is lost, and a treatment of the UPDATE where
the parser was told to go on.
-/

namespace Erez.Speaker

open Daemon

/-! ## Parsing errors -/

/-- What can be wrong with the numbers of an address family. -/
inductive FamilyParsingError where
  | nomError (kind : ErrorKind)
  | addressFamilyError (afi : UInt16)
  | subsequentAddressFamilyError (safi : UInt8)
  | addressTypeError (afi : UInt16) (safi : UInt8)
  deriving DecidableEq

/-- An error of a capability's own parser keeps the name of the capability. -/
inductive BgpCapabilityParsingError where
  | nomError (kind : ErrorKind)
  | invalidRouteRefreshLength (length : UInt8)
  | invalidEnhancedRouteRefreshLength (length : UInt8)
  | invalidExtendedMessageLength (length : UInt8)
  | fourOctetAsNomError (kind : ErrorKind)
  | fourOctetAsInvalidLength (length : UInt8)
  | multiProtocolExtensionsInvalidLength (length : UInt8)
  | multiProtocolExtensionsCapabilityError (error : FamilyParsingError)
  | gracefulRestartCapabilityError (error : FamilyParsingError)
  | addPathCapabilityError (error : FamilyParsingError)
  | invalidAddPathSendReceiveValue (value : UInt8)
  | extendedNextHopEncodingCapabilityError (error : FamilyParsingError)
  | multipleLabelError (error : FamilyParsingError)
  | bgpRoleNomError (kind : ErrorKind)
  | bgpRoleInvalidLength (length : UInt8)
  | undefinedBgpRoleValue (role : UInt8)
  deriving DecidableEq

inductive BgpParameterParsingError where
  | nomError (kind : ErrorKind)
  | undefinedParameterType (code : UInt8)
  | capabilityError (error : BgpCapabilityParsingError)
  deriving DecidableEq

inductive BgpOpenMessageParsingError where
  | nomError (kind : ErrorKind)
  | unsupportedVersionNumber (version : UInt8)
  | unacceptableHoldTime (holdTime : UInt16)
  | invalidBgpId (bgpId : Ipv4Addr)
  | parameterError (error : BgpParameterParsingError)
  deriving DecidableEq

inductive MpReachParsingError where
  | nomError
  | undefinedAddressFamily
  | undefinedSubsequentAddressFamily
  | ipAddrError (addressType : AddressType)
  | labeledNextHopError (addressType : AddressType)
  | ipv4UnicastAddressError
  | ipv4MulticastAddressError
  | ipv4NlriMplsLabelsAddressError
  | ipv4MplsVpnUnicastAddressError
  | ipv6UnicastAddressError
  | ipv6NlriMplsLabelsAddressError
  | ipv6MulticastAddressError
  | ipv6MplsVpnUnicastAddressError
  | l2EvpnAddressError
  | routeTargetMembershipAddressError
  | bgpLsNlriParsingError
  deriving DecidableEq

inductive MpUnreachParsingError where
  | nomError
  | undefinedAddressFamily
  | undefinedSubsequentAddressFamily
  | ipv4UnicastAddressError
  | ipv4MulticastAddressError
  | ipv4NlriMplsLabelsAddressError
  | ipv4MplsVpnUnicastAddressError
  | ipv6UnicastAddressError
  | ipv6NlriMplsLabelsAddressError
  | ipv6MulticastAddressError
  | ipv6MplsVpnUnicastAddressError
  | l2EvpnAddressError
  | routeTargetMembershipAddressError
  | bgpLsError
  deriving DecidableEq

inductive InvalidPathAttribute where
  | invalidOptionalFlagValue (value : Bool)
  | invalidTransitiveFlagValue (value : Bool)
  | invalidPartialFlagValue (value : Bool)
  deriving DecidableEq

inductive PathAttributeParsingError where
  | nomError
  | originError
  | asPathError
  | nextHopError
  | multiExitDiscriminatorError
  | localPreferenceError
  | atomicAggregateError
  | aggregatorError
  | communitiesError
  | extendedCommunitiesError
  | extendedCommunitiesErrorIpv6
  | largeCommunitiesError
  | originatorError
  | clusterListError
  | mpReachErrorError (error : MpReachParsingError)
  | mpUnreachErrorError (error : MpUnreachParsingError)
  | onlyToCustomerError
  | aigpError
  | bgpLsError
  | segmentIdentifierParsingError
  | unknownAttributeError
  | invalidPathAttribute (error : InvalidPathAttribute)
  deriving DecidableEq

inductive BgpUpdateMessageParsingError where
  | nomError (kind : ErrorKind)
  | pathAttributeError (error : PathAttributeParsingError)
  | ipv4PrefixError (error : Ipv4PrefixParsingError)
  | invalidIpv4UnicastNetwork (net : Ipv4Net)
  deriving DecidableEq

/-- The parsing errors of the messages that carry no routes are one each. -/
inductive BgpMessageParsingError where
  | nomError (kind : ErrorKind)
  | connectionNotSynchronized (header : List UInt8)
  | undefinedBgpMessageType (code : UInt8)
  | badMessageLength (length : UInt16)
  | bgpOpenMessageParsingError (error : BgpOpenMessageParsingError)
  | bgpUpdateMessageParsingError (error : BgpUpdateMessageParsingError)
  | bgpNotificationMessageParsingError
  | bgpRouteRefreshMessageParsingError
  deriving DecidableEq

inductive BgpCodecDecoderError where
  | ioError
  | incomplete (needed : ℕ)
  | bgpMessageParsingError (error : BgpMessageParsingError)
  deriving DecidableEq

/-! ## The errors as notifications -/

def BgpParameterParsingError.toOpenMessageError : BgpParameterParsingError → OpenMessageError
  | nomError _ => .unspecific []
  | undefinedParameterType code => .unsupportedOptionalParameter [code]
  | capabilityError _ => .unspecific []

def BgpOpenMessageParsingError.toOpenMessageError : BgpOpenMessageParsingError → OpenMessageError
  | nomError _ => .unspecific []
  | unsupportedVersionNumber _ => .unsupportedVersionNumber (Lib.ByteParser.toBigEndian 2 4)
  | unacceptableHoldTime holdTime =>
      .unacceptableHoldTime (Lib.ByteParser.toBigEndian 2 holdTime.toNat)
  | invalidBgpId bgpId => .badBgpIdentifier bgpId.octets.toList
  | parameterError error => error.toOpenMessageError

def BgpUpdateMessageParsingError.toUpdateMessageError :
    BgpUpdateMessageParsingError → UpdateMessageError
  | nomError .eof => .malformedAttributeList []
  | pathAttributeError error =>
      match error with
      | .nomError => .malformedAttributeList []
      | .originError => .invalidOriginAttribute []
      | .asPathError => .malformedAsPath []
      | .nextHopError => .invalidNextHopAttribute []
      | .multiExitDiscriminatorError | .localPreferenceError | .atomicAggregateError
      | .aggregatorError | .communitiesError | .extendedCommunitiesError
      | .extendedCommunitiesErrorIpv6 | .largeCommunitiesError | .originatorError
      | .clusterListError | .mpReachErrorError _ | .mpUnreachErrorError _ | .onlyToCustomerError
      | .aigpError | .segmentIdentifierParsingError => .optionalAttributeError []
      | .unknownAttributeError | .bgpLsError => .unspecific []
      | .invalidPathAttribute _ => .attributeFlagsError []
  | ipv4PrefixError error =>
      if error = .nomError .eof then .malformedAttributeList [] else .invalidNetworkField []
  | invalidIpv4UnicastNetwork _ => .unspecific []

/-! ## Events -/

inductive ConnectionEvent where
  | holdTimerExpires
  | keepAliveTimerExpires
  | delayOpenTimerExpires
  | tcpConnectionRequestAcked
  | tcpConnectionConfirmed
  | tcpConnectionFails
  | bgpOpen (message : BgpOpenMessage)
  | bgpOpenWithDelayOpenTimer (message : BgpOpenMessage)
  | bgpHeaderErr (error : MessageHeaderError)
  | bgpOpenMsgErr (error : OpenMessageError)
  | notifMsgVerErr
  | notifMsg (message : BgpNotificationMessage)
  | notifMsgErr
  | keepAliveMsg
  | updateMsg (message : BgpUpdateMessage) (treatment : UpdateTreatment)
  | updateMsgErr (error : UpdateMessageError)
  | routeRefresh (message : BgpRouteRefreshMessage)
  | routeRefreshErr (error : RouteRefreshError)
  deriving DecidableEq

def ConnectionEvent.ofDecoderError : BgpCodecDecoderError → ConnectionEvent
  | .ioError => tcpConnectionFails
  | .incomplete _ => bgpHeaderErr (.badMessageLength [])
  | .bgpMessageParsingError error =>
      match error with
      | .nomError _ => bgpHeaderErr (.unspecific [])
      | .connectionNotSynchronized header => bgpHeaderErr (.connectionNotSynchronized header)
      | .undefinedBgpMessageType code => bgpHeaderErr (.badMessageType [code])
      | .badMessageLength length =>
          bgpHeaderErr (.badMessageLength (Lib.ByteParser.toBigEndian 2 length.toNat))
      | .bgpOpenMessageParsingError error => bgpOpenMsgErr error.toOpenMessageError
      | .bgpUpdateMessageParsingError error => updateMsgErr error.toUpdateMessageError
      | .bgpNotificationMessageParsingError => notifMsgErr
      | .bgpRouteRefreshMessageParsingError => routeRefreshErr (.invalidMessageLength [])

/-- The events of a connection are events of the state machine, each under its name. -/
inductive BgpEvent where
  | manualStart
  | manualStop
  | automaticStart
  | manualStartWithPassiveTcp
  | automaticStartWithPassiveTcp
  | automaticStop
  | connectRetryTimerExpires
  | openCollisionDump
  | connection (event : ConnectionEvent)
  deriving DecidableEq

/-- What the daemon's task looks at. -/
def BgpEvent.toDaemon : BgpEvent → Daemon.BgpEvent
  | connection (.updateMsg message treatment) => .updateMsg message treatment
  | _ => .other

end Erez.Speaker
