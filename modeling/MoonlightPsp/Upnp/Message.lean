import MoonlightPsp.Rtsp.Text

/-!
# Messages of the gateway

What the UPnP client reads from the texts that a gateway sends, and the requests that it
writes.
-/

namespace MoonlightPsp.Upnp

open Rtsp

/-! ## URLs -/

/-- `parse_http_url`: host, port and path. -/
def parseHttpUrl (url : Text) : Option (Text × ℕ × Text) :=
  if "http://".toList.isPrefixOf url then
    let authority := (url.drop 7).takeWhile (· ≠ '/')
    let pathStart := (url.drop 7).dropWhile (· ≠ '/')
    let path := if pathStart = [] then "/".toList else pathStart.take 191
    if authority.length = 0 ∨ 128 ≤ authority.length then none
    else if ':' ∈ authority then
      -- the host ends at the last colon
      let port := (authority.reverse.takeWhile (· ≠ ':')).reverse
      let host := authority.take (authority.length - port.length - 1)
      match scanInt port with
      | some (v, _) =>
          if v ≤ 0 ∨ 65535 < v ∨ host = [] then none else some (host.take 95, v.toNat, path)
      | none => none
    else some (authority.take 95, 80, path)
  else none

/-- `build_http_origin`. -/
def buildHttpOrigin (url : Text) (originSize : ℕ) : Option Text :=
  (parseHttpUrl url).map fun (host, port, _) =>
    snprintf originSize ("http://".toList ++ host ++ ':' :: decimal port)

/-- `compose_control_url`. -/
def composeControlUrl (descUrl urlBase controlPath : Text) (outSize : ℕ) : Option Text :=
  if "http://".toList.isPrefixOf controlPath then some (controlPath.take (outSize - 1))
  else
    (buildHttpOrigin (if urlBase = [] then descUrl else urlBase) 160).map fun origin =>
      if controlPath.head? = some '/' then snprintf outSize (origin ++ controlPath)
      else snprintf outSize (origin ++ '/' :: controlPath)

/-! ## Responses -/

/-- `http_status_code`. -/
def httpStatusCode (response : Text) : ℤ :=
  if "HTTP/".toList.isPrefixOf response then
    match scanInt (response.drop 5) with
    | none => -1
    | some (_, rest) =>
        let long :=
          match rest with
          | '.' :: more => (scanInt more).bind fun minor => scanInt minor.2
          | _ => none
        match long.or (scanInt rest) with
        | some (code, _) => code
        | none => -1
  else -1

/-- `ascii_tolower`. -/
def asciiTolower (c : Char) : Char :=
  if 'A' ≤ c ∧ c ≤ 'Z' then Char.ofNat (c.toNat + 32) else c

/-- A blank of a header line. -/
def isBlank (c : Char) : Bool := c == ' ' || c == '\t'

/-- `extract_http_header_value`. -/
def extractHttpHeaderValue (http headerName : Text) (outSize : ℕ) : Option Text :=
  let line := before "\r\n".toList http
  if line = [] then none
  else
    let key := line.takeWhile (· ≠ ':')
    if key.length < line.length ∧ key.length = headerName.length ∧
        key.map asciiTolower = headerName.map asciiTolower then
      let value := (line.drop (key.length + 1)).dropWhile isBlank
      some ((value.reverse.dropWhile isBlank).reverse.take (outSize - 1))
    else
      extractHttpHeaderValue (http.drop (line.length + 2)) headerName outSize
termination_by http.length
decreasing_by
  cases http with
  | nil => exact absurd rfl ‹¬before "\r\n".toList [] = []›
  | cons c cs =>
      rw [List.length_drop, List.length_cons]
      omega

/-- `extract_xml_value`. -/
def extractXmlValue (xml tag : Text) (outSize : ℕ) : Option Text :=
  (after (snprintf 48 ("<".toList ++ tag ++ ">".toList)) xml).bind fun start =>
    (strstr (snprintf 52 ("</".toList ++ tag ++ ">".toList)) start).bind fun ending =>
      let value := start.take (start.length - ending.length)
      if value = [] then none else some (value.take (outSize - 1))

/-- `extract_xml_value_between`; the bound is given by what follows it. -/
def extractXmlValueBetween (start endBound tag : Text) (outSize : ℕ) : Option Text :=
  if start.length ≤ endBound.length then none
  else
    let opening := snprintf 48 ("<".toList ++ tag ++ ">".toList)
    (strstr opening start).bind fun startTag =>
      if startTag.length ≤ endBound.length then none
      else
        let valueStart := startTag.drop opening.length
        (strstr (snprintf 52 ("</".toList ++ tag ++ ">".toList)) valueStart).bind
          fun valueEnd =>
            if valueEnd.length < endBound.length ∨ valueStart.length ≤ valueEnd.length then
              none
            else
              some ((valueStart.take (valueStart.length - valueEnd.length)).take (outSize - 1))

/-- `parse_igd_description`: the control URL and the service type. -/
def parseIgdDescription (xml descUrl : Text) : Option (Text × Text) :=
  ((strstr "<serviceType>urn:schemas-upnp-org:service:WANIPConnection:".toList xml).or
    (strstr "<serviceType>urn:schemas-upnp-org:service:WANPPPConnection:".toList xml)).bind
    fun serviceStart =>
      (strstr "</service>".toList serviceStart).bind fun serviceEnd =>
        (extractXmlValueBetween serviceStart serviceEnd "serviceType".toList 96).bind
          fun serviceType =>
            (extractXmlValueBetween serviceStart serviceEnd "controlURL".toList 160).bind
              fun controlPath =>
                let urlBase := (extractXmlValue xml "URLBase".toList 160).getD []
                (composeControlUrl descUrl urlBase controlPath 256).map fun controlUrl =>
                  (controlUrl, serviceType.take 95)

/-! ## Addresses -/

/-- One `%u` of `sscanf`, with the saturation of `strtoul`. -/
def scanUnsigned (text : Text) : Option (ℕ × Text) :=
  (scanInt text).map fun (n, rest) =>
    let value := n.natAbs
    (if 4294967295 < value then 4294967295
      else if n < 0 then 4294967296 - value
      else value, rest)

/-- A number behind a dot. -/
def scanDotted (text : Text) : Option (ℕ × Text) :=
  match text with
  | '.' :: rest => scanUnsigned rest
  | _ => none

/-- `parse_ipv4_octets`. -/
def parseIpv4Octets (ip : Text) : Option (ℕ × ℕ × ℕ × ℕ) :=
  (scanUnsigned ip).bind fun (a, rest) =>
    (scanDotted rest).bind fun (b, rest) =>
      (scanDotted rest).bind fun (c, rest) =>
        (scanDotted rest).bind fun (d, tail) =>
          if tail ≠ [] ∨ 255 < a ∨ 255 < b ∨ 255 < c ∨ 255 < d then none
          else some (a, b, c, d)

/-- `is_public_ipv4_target`. -/
def isPublicIpv4Target (host : Text) : Bool :=
  match parseIpv4Octets host with
  | none => true
  | some (a, b, _, _) =>
      !(a = 10 ∨ a = 127 ∨ (a = 169 ∧ b = 254) ∨ (a = 192 ∧ b = 168) ∨
        (a = 172 ∧ 16 ≤ b ∧ b ≤ 31) ∨ (a = 100 ∧ 64 ≤ b ∧ b ≤ 127))

/-! ## Requests -/

/-- What a SOAP body starts with. -/
def envelopeStart : Text :=
  ("<?xml version=\"1.0\"?>\r\n" ++
    "<s:Envelope xmlns:s=\"http://schemas.xmlsoap.org/soap/envelope/\" " ++
    "s:encodingStyle=\"http://schemas.xmlsoap.org/soap/encoding/\">\r\n" ++
    "<s:Body>\r\n").toList

/-- What it ends with. -/
def envelopeEnd : Text := ("</s:Body>\r\n" ++ "</s:Envelope>\r\n").toList

/-- The body of a SOAP request. -/
def soapBody (action serviceType params : Text) : Text :=
  envelopeStart ++
  ("<u:".toList ++ action ++ " xmlns:u=\"".toList ++ serviceType ++ "\">\r\n".toList) ++
  params ++
  ("</u:".toList ++ action ++ ">\r\n".toList) ++
  envelopeEnd

/-- The header lines of a SOAP request that are always the same. -/
def contentType : Text := "Content-Type: text/xml; charset=\"utf-8\"\r\n".toList

def connectionClose : Text := "Connection: close\r\n".toList

/-- A SOAP request. -/
def soapRequest (host : Text) (port : ℕ) (path action serviceType body : Text) : Text :=
  ("POST ".toList ++ path ++ " HTTP/1.1\r\n".toList) ++
  ("Host: ".toList ++ host ++ ":".toList ++ decimal port ++ "\r\n".toList) ++
  contentType ++
  ("SOAPAction: \"".toList ++ serviceType ++ "#".toList ++ action ++ "\"\r\n".toList) ++
  connectionClose ++
  ("Content-Length: ".toList ++ decimal body.length ++ "\r\n".toList) ++
  "\r\n".toList ++
  body

/-- The parameters that name a mapping. -/
def mappingName (port : ℕ) : Text :=
  "<NewRemoteHost></NewRemoteHost>\r\n".toList ++
  ("<NewExternalPort>".toList ++ decimal port ++ "</NewExternalPort>\r\n".toList) ++
  "<NewProtocol>UDP</NewProtocol>\r\n".toList

/-- The parameters of `upnp_add_udp_mapping`. -/
def addParams (port : ℕ) (localIp : Text) : Text :=
  snprintf 640 (mappingName port ++
    ("<NewInternalPort>".toList ++ decimal port ++ "</NewInternalPort>\r\n".toList) ++
    ("<NewInternalClient>".toList ++ localIp ++ "</NewInternalClient>\r\n".toList) ++
    "<NewEnabled>1</NewEnabled>\r\n".toList ++
    ("<NewPortMappingDescription>".toList ++
      snprintf 48 ("MoonlightPSP-".toList ++ decimal port) ++
      "</NewPortMappingDescription>\r\n".toList) ++
    "<NewLeaseDuration>0</NewLeaseDuration>\r\n".toList)

/-- The parameters of `upnp_delete_udp_mapping`. -/
def deleteParams (port : ℕ) : Text := snprintf 320 (mappingName port)

end MoonlightPsp.Upnp
