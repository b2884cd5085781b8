import MoonlightPsp.Upnp.Message

/-!
# The UPnP client

The ledger of mapped ports and the cached control endpoint, with everything that asks a
gateway.  The gateway may answer anything, or nothing.  A buffer that a failed request
leaves unfilled holds whatever was there.
-/

namespace MoonlightPsp.Upnp

open Rtsp

/-! ## The gateway -/

/-- What the network gives to each call, by the number of the call. -/
structure Gateway where
  /-- `get_local_ipv4`. -/
  localIp : ℕ → Option Text
  /-- The datagrams that answer a discovery, if a probe was sent. -/
  ssdp : ℕ → Option (List (List Char))
  /-- The bytes that answer a TCP request, if it was sent. -/
  tcp : ℕ → Option (List Char)
  /-- What an unfilled response buffer holds. -/
  stack : ℕ → Text

inductive MappingAction where
  | add
  | delete
  deriving DecidableEq

/-- The name of the action. -/
def MappingAction.name : MappingAction → Text
  | .add => "AddPortMapping".toList
  | .delete => "DeletePortMapping".toList

/-- How a request ends: it could not be written, or it was not sent, and the buffer is
left as it was; or the buffer holds the reply. -/
inductive Exit where
  | unformed (stack : Text)
  | unsent (stack : Text)
  | reply (response : Text)

/-- What the buffer holds after a request. -/
def Exit.response : Exit → Text
  | .unformed stack => stack
  | .unsent stack => stack
  | .reply response => response

/-- What `soap_action_request` returns. -/
def Exit.status : Exit → ℤ
  | .unformed _ => -1
  | .unsent _ => -1
  | .reply response => httpStatusCode response

/-- What happens to the ports. -/
inductive UpnpEvent where
  /-- A request for a port. -/
  | request (action : MappingAction) (port : UInt16) (exit : Exit)
  /-- A port enters the ledger. -/
  | recorded (port : UInt16)
  /-- A port leaves it. -/
  | forgotten (port : UInt16)

/-- The static variables, the number of calls so far, and what has happened. -/
structure UpnpState where
  clock : ℕ
  localIp : Text
  controlUrl : Text
  serviceType : Text
  haveControlEndpoint : Bool
  mappedPorts : List UInt16
  log : List UpnpEvent

/-- Before the first stream. -/
def UpnpState.start : UpnpState where
  clock := 0
  localIp := []
  controlUrl := []
  serviceType := []
  haveControlEndpoint := false
  mappedPorts := []
  log := []

/-- `UPNP_MAX_MAPPED_PORTS`. -/
def maxMappedPorts : ℕ := 8

/-- A C string in a buffer of 4096 bytes. -/
def received (bytes : List Char) : Text := (bytes.take 4095).takeWhile (· ≠ Char.ofNat 0)

/-! ## Discovery -/

/-- `clear_control_endpoint_cache`. -/
def clearControlEndpointCache (s : UpnpState) : UpnpState :=
  { s with
    haveControlEndpoint := false
    controlUrl := []
    serviceType := [] }

/-- `get_local_ipv4`. -/
def getLocalIpv4 (gw : Gateway) (s : UpnpState) : Bool × UpnpState :=
  match gw.localIp s.clock with
  | none => (false, { s with clock := s.clock + 1 })
  | some ip =>
      if ip = [] then (false, { s with clock := s.clock + 1 })
      else
        (true, { s with
          clock := s.clock + 1
          localIp := ip.take 15 })

/-- `ssdp_discover_location`: the first answer with a location. -/
def ssdpDiscoverLocation (gw : Gateway) (s : UpnpState) : Option Text :=
  (gw.ssdp s.clock).bind fun datagrams =>
    datagrams.findSome? fun datagram =>
      if datagram = [] then none
      else extractHttpHeaderValue (received datagram) "LOCATION".toList 256

/-- `http_get_raw`: the status and the response. -/
def httpGetRaw (gw : Gateway) (url : Text) (s : UpnpState) : Option (ℤ × Text) :=
  (parseHttpUrl url).bind fun _ =>
    (gw.tcp s.clock).bind fun bytes =>
      if bytes = [] then none else some (httpStatusCode (received bytes), received bytes)

/-- `discover_control_endpoint`. -/
def discoverControlEndpoint (gw : Gateway) (s : UpnpState) : Bool × UpnpState :=
  if s.haveControlEndpoint then (true, s)
  else
    let found :=
      (ssdpDiscoverLocation gw s).bind fun location =>
        (httpGetRaw gw location s).bind fun (status, response) =>
          if status < 200 ∨ 300 ≤ status then none
          else
            let xmlBody := (after "\r\n\r\n".toList response).getD response
            parseIgdDescription xmlBody location
    let s := { s with clock := s.clock + 1 }
    match found with
    | none => (false, s)
    | some (controlUrl, serviceType) =>
        (true, { s with
          controlUrl := controlUrl
          serviceType := serviceType
          haveControlEndpoint := true })

/-! ## Requests -/

/-- The checks of `soap_action_request` in front of the connection. -/
def Formed (s : UpnpState) (action params : Text) : Bool :=
  s.haveControlEndpoint &&
    match parseHttpUrl s.controlUrl with
    | none => false
    | some (host, port, path) =>
        let body := soapBody action s.serviceType params
        let request := soapRequest host port path action s.serviceType body
        decide (body.length < 1536) && decide (request.length < 2304)

/-- `soap_action_request`, for a port. -/
def soapActionRequest (gw : Gateway) (action : MappingAction) (port : UInt16) (params : Text)
    (s : UpnpState) : Exit × UpnpState :=
  let exit :=
    if Formed s action.name params then
      match gw.tcp s.clock with
      | none => .unsent (gw.stack s.clock)
      | some bytes => .reply (received bytes)
    else .unformed (gw.stack s.clock)
  (exit, { s with
    clock := s.clock + 1
    log := s.log ++ [.request action port exit] })

/-- `upnp_add_udp_mapping`. -/
def upnpAddUdpMapping (gw : Gateway) (port : UInt16) (s : UpnpState) : Bool × UpnpState :=
  let (exit, s) := soapActionRequest gw .add port (addParams port.toNat s.localIp) s
  if 200 ≤ exit.status ∧ exit.status < 300 then (true, s)
  else
    (contains "718".toList exit.response ||
      contains "ConflictInMappingEntry".toList exit.response, s)

/-- `map_requested_ports`: the number of mapped ports. -/
def mapRequestedPorts (gw : Gateway) : List UInt16 → UpnpState → ℕ × UpnpState
  | [], s => (0, s)
  | port :: ports, s =>
      let (ok, s) := upnpAddUdpMapping gw port s
      if ok then
        let s :=
          if s.mappedPorts.length < maxMappedPorts then
            { s with
              mappedPorts := s.mappedPorts ++ [port]
              log := s.log ++ [.recorded port] }
          else s
        let (mapped, s) := mapRequestedPorts gw ports s
        (mapped + 1, s)
      else mapRequestedPorts gw ports s

/-- `upnp_delete_udp_mapping`, whose result nobody reads. -/
def upnpDeleteUdpMapping (gw : Gateway) (port : UInt16) (s : UpnpState) : UpnpState :=
  (soapActionRequest gw .delete port (deleteParams port.toNat) s).2

/-! ## The two operations -/

/-- The ledger is emptied. -/
def forgetPorts (s : UpnpState) : UpnpState :=
  { s with
    mappedPorts := []
    log := s.log ++ s.mappedPorts.map .forgotten }

/-- `upnp_remove_stream_mappings`. -/
def upnpRemoveStreamMappings (gw : Gateway) (s : UpnpState) : UpnpState :=
  if s.mappedPorts = [] then s
  else if !s.haveControlEndpoint then forgetPorts s
  else
    forgetPorts (s.mappedPorts.reverse.foldl (fun s port => upnpDeleteUdpMapping gw port s) s)

/-- `add_unique_port`. -/
def addUniquePort (ports : List UInt16) (maxCount : ℕ) (port : UInt16) : List UInt16 :=
  if maxCount ≤ ports.length ∨ port = 0 then ports
  else if port ∈ ports then ports
  else ports ++ [port]

/-- A port and the one behind it. -/
def addPortPair (ports : List UInt16) (port : UInt16) : List UInt16 :=
  let ports := addUniquePort ports 6 port
  if port < 65535 then addUniquePort ports 6 (port + 1) else ports

/-- The ports that a stream needs. -/
def requestedPorts (videoPort : UInt16) (audioEnabled : Bool) (audioPort : UInt16) :
    List UInt16 :=
  let ports := addPortPair [] videoPort
  if audioEnabled && 0 < audioPort then addPortPair ports audioPort else ports

/-- `upnp_prepare_stream_mappings`. -/
def upnpPrepareStreamMappings (gw : Gateway) (targetHost : Text) (videoPort : UInt16)
    (audioEnabled : Bool) (audioPort : UInt16) (s : UpnpState) : ℤ × UpnpState :=
  let s := upnpRemoveStreamMappings gw s
  if targetHost = [] ∨ videoPort = 0 then (-1, s)
  else if !isPublicIpv4Target targetHost then (0, s)
  else
    let (ok, s) := getLocalIpv4 gw s
    if !ok then (-2, s)
    else
      let (ok, s) := discoverControlEndpoint gw s
      if !ok then (-3, s)
      else
        let ports := requestedPorts videoPort audioEnabled audioPort
        let (mapped, s) := mapRequestedPorts gw ports s
        if 0 < mapped then (mapped, s)
        else
          let (ok, s) := discoverControlEndpoint gw (clearControlEndpointCache s)
          if !ok then (-4, s)
          else
            let (mapped, s) := mapRequestedPorts gw ports s
            if 0 < mapped then (mapped, s) else (-4, s)

/-- What can happen. -/
inductive UpnpOp where
  | prepare (targetHost : Text) (videoPort : UInt16) (audioEnabled : Bool)
      (audioPort : UInt16)
  | remove

/-- The state after an operation. -/
def UpnpState.step (gw : Gateway) (s : UpnpState) : UpnpOp → UpnpState
  | .prepare targetHost videoPort audioEnabled audioPort =>
      (upnpPrepareStreamMappings gw targetHost videoPort audioEnabled audioPort s).2
  | .remove => upnpRemoveStreamMappings gw s

end MoonlightPsp.Upnp
