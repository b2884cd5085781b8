import MoonlightPsp.Config.LoadSave
import MoonlightPsp.Pad

/-!
# The page of the hosts

The list of the hosts that are known, with the selected one and the window of those that are
shown.  Hosts come from the configuration, from answers to a multicast query, from a scan of
the subnet and from the keyboard; each is asked for `/serverinfo`.  The log keeps what was
done to the list.
-/

namespace MoonlightPsp.Hosts

open MoonlightPsp.Config MoonlightPsp.Rtsp

/-- `HostPC`. -/
structure HostPC where
  name : Field 32
  ip : Field 16
  mac : Field 18
  status : ℤ
  paired : Bool

/-- What is done to the list. -/
inductive HostEvent where
  | added (ip : Text)
  | probed (ip : Text) (answered : Bool)
  | marked (ip : Text)
  | removed (ip : Text)
  | cleared

/-- `g_hosts` up to its count, the selection, and the configuration that is read. -/
structure Discovery where
  hosts : List HostPC
  selectedIndex : ℤ
  firstVisibleIndex : ℤ
  prevButtons : UInt32
  manualHosts : List ManualHostEntry
  config : PairedHosts
  log : List HostEvent

def maxHosts : ℕ := 20
def maxManualHosts : ℕ := 8
def maxVisibleHosts : ℤ := 5
def maxResponseSize : ℕ := 2048

scoped instance neZero_thirtyTwo : NeZero 32 := ⟨by decide⟩

namespace Discovery

/-- `g_host_count`. -/
def hostCount (d : Discovery) : ℤ := d.hosts.length

/-- The index that `clampSelectionWindow` selects, of a list with hosts. -/
def clampSelected (selected count : ℤ) : ℤ :=
  if selected < 0 then 0 else if selected ≥ count then count - 1 else selected

/-- The first index that it shows. -/
def clampFirstVisible (selected first count : ℤ) : ℤ :=
  let first := if first < 0 then 0 else first
  let first := if selected < first then selected else first
  let first :=
    if selected ≥ first + maxVisibleHosts then selected - (maxVisibleHosts - 1) else first
  let maxFirst := if count - maxVisibleHosts < 0 then 0 else count - maxVisibleHosts
  if first > maxFirst then maxFirst else first

/-- `clampSelectionWindow`. -/
def clampSelectionWindow (d : Discovery) : Discovery :=
  if d.hostCount ≤ 0 then { d with selectedIndex := 0, firstVisibleIndex := 0 }
  else
    let selected := clampSelected d.selectedIndex d.hostCount
    { d with
      selectedIndex := selected
      firstVisibleIndex := clampFirstVisible selected d.firstVisibleIndex d.hostCount }

/-- `findHostIndexByIp`. -/
def findHostIndexByIp (d : Discovery) (ip : Text) : Option ℕ :=
  d.hosts.findIdx? fun host => host.ip.text = ip

end Discovery

/-- The host behind an update. -/
def HostPC.update (host : HostPC) (ip : Field 16) (name : Text) (mac : Option Text)
    (status : ℤ) : HostPC :=
  { host with
    name :=
      if name ≠ [] then .strncpy 32 name
      else if host.name.text = [] then .strncpy 32 ip.text
      else host.name
    mac :=
      match mac with
      | none => host.mac
      | some mac => if mac = [] then host.mac else .strncpy 18 mac
    status := status }

/-- `addOrUpdateHost`; its callers have the address in a field of 16 bytes. -/
def Discovery.addOrUpdateHost (d : Discovery) (ip : Field 16) (name : Text)
    (mac : Option Text) (status : ℤ) : Discovery :=
  if ip.text = [] then d
  else
    match d.findHostIndexByIp ip.text with
    | some index =>
        { d with
          hosts := d.hosts.modify index fun host => host.update ip name mac status
          log := d.log ++ [.added ip.text] }
    | none =>
        if d.hosts.length ≥ maxHosts then d
        else
          { d with
            hosts := d.hosts ++
              [(⟨.cleared 32, ip, .cleared 18, 0, false⟩ : HostPC).update ip name mac status]
            log := d.log ++ [.added ip.text] }

/-! ## The probe -/

/-- The text between two tags, if it is not empty and fits the field. -/
def betweenTags (openTag closeTag : String) (size : ℕ) (response : Text) : Option Text :=
  (after openTag.toList response).bind fun rest =>
    if contains closeTag.toList rest then
      let value := before closeTag.toList rest
      if 0 < value.length ∧ value.length < size then some value else none
    else none

/-- The value of the key `"Hostname"`. -/
def jsonHostname (size : ℕ) (response : Text) : Option Text :=
  (after "\"Hostname\"".toList response).bind fun rest =>
    let value := (rest.dropWhile fun c => c == ' ' || c == ':' || c == '"').takeWhile
      fun c => c != '"' && c != ',' && c != '\x7d'
    if value ≠ [] ∧ value.length < size then some value else none

/-- `parseDiscoveryResponse`. -/
def parseDiscoveryResponse (response : Text) (hostnameSize : ℕ) : Option Text :=
  let buf := response.take (maxResponseSize - 1)
  betweenTags "<Hostname>" "</Hostname>" hostnameSize buf <|>
    betweenTags "<hostname>" "</hostname>" hostnameSize buf <|>
    jsonHostname hostnameSize buf

/-- The response is one to `/serverinfo`. -/
def looksLikeServerinfo (response : Text) : Bool :=
  ["status_code=\"200\"", "\"status_code\":200", "<root", "<hostname>", "<Hostname>"].any
    fun needle => contains needle.toList response

/-- `httpProbeHost`: the host behind it, and whether it answered.  The response is none
where the connection, the request or the read came to nothing. -/
def httpProbeHost (config : PairedHosts) (host : HostPC) (response : Option Text) :
    HostPC × Bool :=
  match response with
  | none => (host, false)
  | some response =>
      if !looksLikeServerinfo response then (host, false)
      else
        ({ host with
            name := ((parseDiscoveryResponse response 32).map (Field.strncpy 32)).getD host.name
            status := 1
            paired := configIsHostPaired config host.ip.text
            mac := ((betweenTags "<mac>" "</mac>" 18 response).map (Field.strncpy 18)).getD
              host.mac }, true)

/-- The host at an index is asked; some callers put one offline that does not answer. -/
def Discovery.probe (d : Discovery) (index : ℕ) (response : Option Text) (offline : Bool) :
    Discovery :=
  match d.hosts[index]? with
  | none => d
  | some host =>
      let r := httpProbeHost d.config host response
      { d with
        hosts := d.hosts.set index
          (if !r.2 && offline then { r.1 with status := 0 } else r.1)
        log := d.log ++ [.probed host.ip.text r.2] }

/-! ## The hosts of the configuration -/

/-- `findManualHostIndex`. -/
def findManualHostIndex (manualHosts : List ManualHostEntry) (ip : Text) : Option ℕ :=
  manualHosts.findIdx? fun entry => entry.ip.text = ip

/-- `config_add_manual_host`, with whether it returns 0; `saves` says whether the file is
written. -/
def configAddManualHost (manualHosts : List ManualHostEntry) (ip : Field 16) (mac : Text)
    (saves : Bool) : List ManualHostEntry × Bool :=
  if ip.text = [] then (manualHosts, false)
  else
    match findManualHostIndex manualHosts ip.text with
    | some index =>
        (if mac = [] then manualHosts
          else manualHosts.modify index fun entry => { entry with mac := .strncpy 18 mac }, saves)
    | none =>
        if manualHosts.length ≥ maxManualHosts then (manualHosts, false)
        else
          (manualHosts ++ [⟨ip, if mac = [] then .cleared 18 else .strncpy 18 mac⟩], saves)

/-- `config_delete_manual_host`. -/
def configDeleteManualHost (manualHosts : List ManualHostEntry) (ip : Text) :
    List ManualHostEntry :=
  if ip = [] then manualHosts
  else
    match findManualHostIndex manualHosts ip with
    | none => manualHosts
    | some index => manualHosts.eraseIdx index

namespace Discovery

/-- The paired flag of a host is read from the configuration. -/
def readPaired (d : Discovery) (ip : Text) : Discovery :=
  match d.findHostIndexByIp ip with
  | none => d
  | some index =>
      { d with
        hosts := d.hosts.modify index fun host =>
          { host with paired := configIsHostPaired d.config ip } }

/-- `loadManualHosts`. -/
def loadManualHosts (d : Discovery) : Discovery :=
  d.manualHosts.foldl
    (fun d entry =>
      (d.addOrUpdateHost entry.ip entry.ip.text (some entry.mac.text) 0).readPaired entry.ip.text)
    { d with hosts := [], log := d.log ++ [.cleared] }

/-! ## The search -/

/-- A host that was not known joins the list and is asked. -/
def meet (d : Discovery) (ip : Field 16) (response : Option Text) : Discovery :=
  let d := d.addOrUpdateHost ip ip.text none 0
  match d.findHostIndexByIp ip.text with
  | none => d
  | some index => d.probe index response false

/-- `mdnsDiscoverHosts`, of the addresses that send a response, each with its answer to the
probe. -/
def mdnsDiscoverHosts (d : Discovery) (responses : List (Field 16 × Option Text)) :
    Discovery :=
  responses.foldl
    (fun d r => if (d.findHostIndexByIp r.1.text).isSome then d else d.meet r.1 r.2) d

/-- The answers to `scanNetwork`. -/
structure ScanAnswers where
  probes : ℕ → Option Text
  responses : List (Field 16 × Option Text)

/-- `scanNetwork`. -/
def scanNetwork (d : Discovery) (a : ScanAnswers) : Discovery :=
  let d := (List.range d.hosts.length).foldl (fun d i => d.probe i (a.probes i) true) d
  let d := d.mdnsDiscoverHosts a.responses
  clampSelectionWindow (if d.hostCount = 0 then { d with selectedIndex := 0 } else d)

end Discovery

/-- `inet_ntoa`. -/
def inetNtoa (ip : UInt32) : Text :=
  decimal (ip >>> 24).toNat ++ '.' :: decimal ((ip >>> 16) &&& 0xFF).toNat ++
    '.' :: decimal ((ip >>> 8) &&& 0xFF).toNat ++ '.' :: decimal (ip &&& 0xFF).toNat

/-- The answers to `quickSubnetScan`: the own address, when the scan is cancelled, which
addresses accept a connection, and what the probes and the file answer. -/
structure SubnetAnswers where
  localIp : Option UInt32
  cancels : ℕ → Bool
  accepts : ℕ → Bool
  saves : ℕ → Bool
  probes : ℕ → Option Text

namespace Discovery

/-- The loop of `quickSubnetScan`. -/
def subnetLoop (localIp : UInt32) (a : SubnetAnswers) : List ℕ → Discovery → Discovery
  | [], d => d
  | i :: rest, d =>
      let target := (localIp &&& 0xFFFFFF00) ||| UInt32.ofNat i
      let ip := Field.strncpy 16 (inetNtoa target)
      if target = localIp then subnetLoop localIp a rest d
      else if (d.findHostIndexByIp ip.text).isSome then subnetLoop localIp a rest d
      else if i % 8 = 0 ∧ a.cancels i = true then d
      else if !a.accepts i then subnetLoop localIp a rest d
      else
        let manualHosts := (configAddManualHost d.manualHosts ip [] (a.saves i)).1
        subnetLoop localIp a rest
          (({ d with manualHosts := manualHosts } : Discovery).meet ip (a.probes i))

/-- `quickSubnetScan`. -/
def quickSubnetScan (d : Discovery) (a : SubnetAnswers) : Discovery :=
  match a.localIp with
  | none => d
  | some localIp => subnetLoop localIp a (List.range' 1 254) d

/-! ## A frame of the page -/

/-- `&g_hosts[g_selected_index]`, where that is a host of the list. -/
def selectedHost (d : Discovery) : Option HostPC :=
  if d.selectedIndex < 0 then none else d.hosts[d.selectedIndex.toNat]?

/-- `host_discovery_get_selected`. -/
def getSelected (d : Discovery) : Option HostPC :=
  if d.hostCount ≤ 0 ∨ d.selectedIndex < 0 ∨ d.selectedIndex ≥ d.hostCount then none
  else d.selectedHost

/-- What a frame is answered: the buttons, what the searches find, whether a deletion is
confirmed and the program left, the address from the keyboard, whether the file is
written, the new host's answer and the buttons behind a dialog. -/
structure FrameAnswers where
  remoteExit : Bool
  pad : UInt32
  scan : ScanAnswers
  subnet : SubnetAnswers
  confirmed : Bool
  keyboard : Option (Field 16)
  saves : Bool
  probe : Option Text
  flushed : UInt32
  exits : Bool

/-- The selection goes up. -/
def moveUp (d : Discovery) : Discovery :=
  if d.selectedIndex > 0 then
    clampSelectionWindow { d with selectedIndex := d.selectedIndex - 1 }
  else d

/-- The selection goes down. -/
def moveDown (d : Discovery) : Discovery :=
  if d.selectedIndex < d.hostCount - 1 then
    clampSelectionWindow { d with selectedIndex := d.selectedIndex + 1 }
  else d

/-- The search that the user asks for. -/
def search (d : Discovery) (a : FrameAnswers) : Discovery :=
  clampSelectionWindow ((d.scanNetwork a.scan).quickSubnetScan a.subnet)

/-- The deletion of the selected host. -/
def deleteSelected (d : Discovery) (target : HostPC) : Discovery :=
  clampSelectionWindow
    { d with
      manualHosts := configDeleteManualHost d.manualHosts target.ip.text
      hosts := d.hosts.eraseIdx d.selectedIndex.toNat
      log := d.log ++ [.removed target.ip.text] }

/-- A host that is typed in joins the list and is asked. -/
def takeIn (d : Discovery) (ip : Field 16) (response : Option Text) : Discovery :=
  let d := clampSelectionWindow (d.addOrUpdateHost ip ip.text none 0)
  match d.findHostIndexByIp ip.text with
  | none => d
  | some index => d.probe index response true

/-- The host that is typed in, if the configuration takes it. -/
def addTyped (d : Discovery) (a : FrameAnswers) : Discovery :=
  match a.keyboard with
  | none => d
  | some ip =>
      let added := configAddManualHost d.manualHosts ip [] a.saves
      let d := { d with manualHosts := added.1 }
      if added.2 then d.takeIn ip a.probe else d

/-- The end of a frame, behind the dialogs: what it returns with. -/
def choose (d : Discovery) (a : FrameAnswers) (pressed : UInt32 → Bool) :
    Option (Discovery × ℤ) := do
  -- The wake-up dialog looks at the selected host.
  if pressed ctrlSelect ∧ d.hostCount > 0 then let _ ← d.selectedHost
  if pressed ctrlStart && a.exits then return (d, -4)
  let d' := { d with prevButtons := a.pad }
  if pressed ctrlCircle then return (d', -2)
  if !pressed ctrlCross then return (d', -1)
  if d.hostCount ≤ 0 then return (d', -1)
  let host ← d.selectedHost
  return (d', if host.status ≠ 2 then d.selectedIndex else -1)

/-- The deletion, the addition and the choice of a host. -/
def react (d : Discovery) (a : FrameAnswers) (pressed : UInt32 → Bool) :
    Option (Discovery × ℤ) :=
  if d.hostCount > 0 ∧ held a.pad ctrlLTrigger ∧ held a.pad ctrlRTrigger ∧
      (pressed ctrlLTrigger ∨ pressed ctrlRTrigger) then
    d.selectedHost.map fun target =>
      ({ (if a.confirmed then d.deleteSelected target else d) with
        prevButtons := a.flushed }, -1)
  else if pressed ctrlTriangle then
    some ({ d.addTyped a with prevButtons := a.flushed }, -1)
  else d.choose a pressed

/-- `renderHostDiscoveryList`, without the drawing; none where it looks at a host that is
not in the list. -/
def frame (d : Discovery) (a : FrameAnswers) : Option (Discovery × ℤ) :=
  if a.remoteExit then some (d, -4)
  else if exitCombo a.pad then some ({ d with prevButtons := a.pad }, -1)
  else
    let pressed := fun button => held a.pad button && !held d.prevButtons button
    let d := if pressed ctrlUp then d.moveUp else d
    let d := if pressed ctrlDown then d.moveDown else d
    let d := if pressed ctrlSquare then d.search a else d
    d.react a pressed

/-! ## Runs -/

/-- `host_discovery_init`. -/
def init (d : Discovery) (a : ScanAnswers) : Discovery :=
  { clampSelectionWindow (d.loadManualHosts.scanNetwork a) with prevButtons := 0 }

/-- `host_discovery_mark_online`. -/
def markOnline (d : Discovery) (ip : Text) : Discovery :=
  if ip = [] then d
  else
    match d.findHostIndexByIp ip with
    | none => d
    | some index =>
        { d with
          hosts := d.hosts.modify index fun host => { host with status := 1 }
          log := d.log ++ [.marked ip] }

/-- `host_discovery_shutdown`. -/
def shutdown (d : Discovery) : Discovery :=
  { d with
    hosts := []
    selectedIndex := 0
    firstVisibleIndex := 0
    prevButtons := 0
    log := d.log ++ [.cleared] }

/-- The page as the program starts, with the hosts that its configuration holds. -/
def start (manualHosts : List ManualHostEntry) (config : PairedHosts) : Discovery :=
  ⟨[], 0, 0, 0, manualHosts, config, []⟩

end Discovery

/-- What happens to the page; a pairing elsewhere changes the configuration. -/
inductive DiscoveryCall where
  | init (a : Discovery.ScanAnswers)
  | frame (a : Discovery.FrameAnswers)
  | markOnline (ip : Text)
  | pairing (config : PairedHosts)
  | shutdown

/-- One call. -/
def Discovery.call (d : Discovery) : DiscoveryCall → Option Discovery
  | .init a => some (d.init a)
  | .frame a => (d.frame a).map Prod.fst
  | .markOnline ip => some (d.markOnline ip)
  | .pairing config => some { d with config := config }
  | .shutdown => some d.shutdown

end MoonlightPsp.Hosts
