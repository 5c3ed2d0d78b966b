import EspMiplay.Lib.Transition
import EspMiplay.Miplay.Text

/-!
# Provisioning and the station

The station joins a network when the speaker boots, and `dlna.c` joins it again when it is
lost. `wifi_provision.c` lets the user choose another network, in a portal (an access point
with a web server and a name server of its own) or on the screen; as long as such a session
is running `dlna.c` keeps still. Both of them, the scan of the screen and the driver are
tasks of one system here.

A task runs until it waits: for a delay, for the web server to finish a request, or for the
result of a join. What the driver, the memory and the flash answer is in the `Luck` of an
action. An event of the driver is queued, and delivered by `deliver` at any later time.

The numbers of sessions and requests (`session`, `request`), what an attempt was made for
(`Attempt.request`) and the closed sockets (`closes`) are ghosts: nothing reads them.
-/

namespace EspMiplay.Wifi

open EspMiplay.Miplay (Bytes ascii strncpy peek)

structure Credentials where
  ssid : Bytes
  password : Bytes
  deriving DecidableEq

/-- `wifi_provision_status_t` -/
inductive ProvStatus where
  | idle
  | connecting
  | success
  | failed
  deriving DecidableEq

inductive WifiMode where
  | sta
  | apsta
  deriving DecidableEq

/-- What the driver joins a network with, and the connect request it was set for. -/
structure Attempt where
  config : Credentials
  request : Option Nat
  deriving DecidableEq

/-- The station interface of the driver. -/
inductive Link where
  | idle
  | joining (a : Attempt)
  /-- joined, without an address -/
  | associated (a : Attempt)
  | online (a : Attempt)
  deriving DecidableEq

/-- `esp_wifi_sta_get_ap_info` -/
def Link.ap : Link → Option Attempt
  | .idle | .joining _ => none
  | .associated a | .online a => some a

/-- What is lost when the station disconnects. -/
def Link.attempt : Link → Option Attempt
  | .idle => none
  | .joining a | .associated a | .online a => some a

inductive StaEvent where
  /-- `WIFI_EVENT_STA_START` -/
  | started
  | disconnected (a : Attempt)
  | gotIp (a : Attempt)
  deriving DecidableEq

/-- Where `sta_connect_task` waits. -/
inductive TaskPc where
  /-- for the HTTP response to reach the phone -/
  | greeting
  /-- in its own `dns_stop` -/
  | dnsDown
  /-- in its own `http_stop` -/
  | httpDown
  /-- in `disconnect_current_sta`: what has gone well so far, and whether it disconnected -/
  | leaving (ok waited : Bool)
  /-- for the result of the join -/
  | waiting
  /-- in `finish_provisioning_session` -/
  | finishHttp
  | finishDns
  deriving DecidableEq

structure ConnectTask where
  session : Nat
  request : Nat
  /-- copied from the target after the greeting -/
  config : Credentials
  pc : TaskPc
  deriving DecidableEq

/-- Where the UI task is in a call of the component. -/
inductive UiPc where
  | idle
  /-- in `wifi_provision_stop` -/
  | stopHttp
  | stopDns
  /-- in `finish_provisioning_session`, without a connect task -/
  | finishHttp
  | finishDns
  /-- in a `wifi_provision_start` that has failed -/
  | failDns
  | failHttp
  deriving DecidableEq

inductive HttpPc where
  | idle
  /-- in `http_handle_scan`: whether the station is to be restored -/
  | scanning (restore : Bool)
  /-- the web server waits for itself -/
  | stuck
  deriving DecidableEq

/-- Where `_wlan_scan_task` is: whether the station was connected. -/
inductive ScanPc where
  | idle
  | scanning (wasConnected : Bool)
  deriving DecidableEq

/-- A name server task, and its socket once it has one. -/
structure DnsTask where
  id : Nat
  sock : Option Nat
  deriving DecidableEq

/-- Which calls succeed. -/
structure Luck where
  getMode : Bool := true
  netif : Bool := true
  setMode : Bool := true
  apConfig : Bool := true
  register : Bool := true
  httpStart : Bool := true
  httpRegister : Bool := true
  dnsCreate : Bool := true
  taskCreate : Bool := true
  restoreMode : Bool := true
  disconnect : Bool := true
  setConfig : Bool := true
  connect : Bool := true
  /-- 20 seconds have gone by -/
  timeout : Bool := false
  loadConfig : Bool := true
  nvsOpen : Bool := true
  nvsSsid : Bool := true
  nvsPassword : Bool := true
  nvsCommit : Bool := true
  socket : Bool := true
  bind : Bool := true
  timerStart : Bool := true
  deriving DecidableEq

structure Station where
  /-- `s_running` -/
  running : Bool
  status : ProvStatus
  /-- `s_target_ssid` and `s_target_password` -/
  target : Credentials
  /-- `s_expected_disconnect` -/
  expected : Bool
  previousMode : WifiMode
  httpd : Bool
  /-- the event handlers of the component are registered -/
  handlers : Bool
  /-- `s_dns_task` -/
  dnsTask : Option Nat
  dnsSock : Option Nat
  /-- `ssid` and `password` of the namespace `wifi_cfg` -/
  nvsSsid : Option Bytes
  nvsPassword : Option Bytes
  ui : UiPc
  http : HttpPc
  /-- `s_connect_task`, which is set exactly as long as the task exists -/
  task : Option ConnectTask
  dns : List DnsTask
  scan : ScanPc
  mode : WifiMode
  /-- the configuration of the station interface -/
  config : Attempt
  link : Link
  events : List StaEvent
  /-- `WIFI_CONNECTED_BIT` -/
  connectedBit : Bool
  /-- `s_wifi_retry_timer` is running -/
  retryArmed : Bool
  session : Nat
  request : Nat
  /-- how many sockets and name server tasks there have been -/
  sockets : Nat
  dnsTasks : Nat
  closes : List Nat
  deriving DecidableEq

namespace Station

variable (s : Station) (luck : Luck)

/-! ## The driver -/

def espWifiConnect : Station :=
  if luck.connect = true ∧ s.link = .idle then { s with link := .joining s.config } else s

/-- The station is idle again, and an event says so. -/
def leave : Station :=
  match s.link.attempt with
  | some a => { s with link := .idle, events := s.events ++ [.disconnected a] }
  | none => s

def espWifiDisconnect : Station := if luck.disconnect then s.leave else s

def espWifiSetMode (mode : WifiMode) (ok : Bool) : Station := if ok then { s with mode := mode } else s

/-! ## Credentials -/

/-- `wifi_provision_load_sta_config`; the buffers take 31 and 63 bytes and a NUL. -/
def loadStaConfig : Option Credentials :=
  match s.nvsSsid with
  | some ssid =>
    if luck.loadConfig = true ∧ ssid.length < 32 ∧ ∀ password ∈ s.nvsPassword, password.length < 64 then
      some ⟨ssid, s.nvsPassword.getD []⟩
    else none
  | none => none

/-- `save_credentials`, and whether it returns `ESP_OK` -/
def saveCredentials (c : Credentials) : Station × Bool :=
  if !luck.nvsOpen || !luck.nvsSsid then (s, false)
  else if !luck.nvsPassword then ({ s with nvsSsid := some c.ssid }, false)
  else ({ s with nvsSsid := some c.ssid, nvsPassword := some c.password }, luck.nvsCommit)

/-! ## The name server and the web server -/

def dnsStart : Station × Bool :=
  if s.dnsTask.isSome then (s, true)
  else if luck.dnsCreate then
    ({ s with
        dnsTask := some (s.dnsTasks + 1)
        dns := s.dns ++ [⟨s.dnsTasks + 1, none⟩]
        dnsTasks := s.dnsTasks + 1 }, true)
  else (s, false)

/-- `dns_stop` up to its wait -/
def takeDnsSock : Station :=
  match s.dnsSock with
  | some k => { s with dnsSock := none, closes := k :: s.closes }
  | none => s

/-- One turn of `dns_task`: it opens its socket, and closes it when it sees that nothing
runs any more. -/
def dnsTurn (n : Nat) (t : DnsTask) : Option Station :=
  match t.sock with
  | none =>
    if !luck.socket then some { s with dnsSock := none, dns := s.dns.eraseIdx n }
    else if !luck.bind then
      some { s with
        dnsSock := none
        dns := s.dns.eraseIdx n
        sockets := s.sockets + 1
        closes := (s.sockets + 1) :: s.closes }
    else
      some { s with
        dnsSock := some (s.sockets + 1)
        dns := s.dns.set n ⟨t.id, some (s.sockets + 1)⟩
        sockets := s.sockets + 1 }
  | some k =>
    if s.running then none
    else
      some { s with
        dnsSock := none
        dnsTask := none
        dns := s.dns.eraseIdx n
        closes := k :: s.closes }

/-- `http_stop` does not wait any more. -/
def HttpDone : Prop := s.httpd = false ∨ s.http = .idle

instance : Decidable s.HttpDone := inferInstanceAs (Decidable (_ ∨ _))

/-! ## Connecting -/

/-- `restore_previous_sta` -/
def restorePreviousSta : Station :=
  match s.loadStaConfig luck with
  | some c =>
    if c.ssid = [] then s
    else if luck.setConfig then { s with config := ⟨c, none⟩ }.espWifiConnect luck
    else s
  | none => s

/-- What the connect task takes from the target: 31 bytes and 63, and a NUL. -/
def taskConfig : Credentials := ⟨strncpy 32 s.target.ssid, strncpy 64 s.target.password⟩

/-- The connect task goes on to its next wait. -/
def taskAt (t : ConnectTask) (pc : TaskPc) : Station := { s with task := some { t with pc := pc } }

/-- The end of `sta_connect_task`, up to the `http_stop` of
`finish_provisioning_session`. -/
def conclude (t : ConnectTask) : Station :=
  if s.status ≠ .success then
    { s.restorePreviousSta luck with running := false }.taskAt t .finishHttp
  else { s with running := false }.taskAt t .finishHttp

/-- The join cannot be started, or takes too long. -/
def giveUp (t : ConnectTask) : Station := { s with status := .failed }.conclude luck t

/-- The join is started. -/
def join (t : ConnectTask) : Station :=
  if !luck.setConfig then s.giveUp luck t
  else if !luck.connect then { s with config := ⟨t.config, some t.request⟩ }.giveUp luck t
  else ({ s with config := ⟨t.config, some t.request⟩ }.espWifiConnect luck).taskAt t .waiting

/-- The portal is down, and the station leaves its network up to the wait of
`disconnect_current_sta`. -/
def tearDown (t : ConnectTask) : Station :=
  if !luck.setMode then { s with httpd := false, expected := true }.taskAt t (.leaving false false)
  else if s.link.ap.isNone then
    { s with httpd := false, expected := true, mode := .sta }.taskAt t (.leaving true false)
  else
    ({ s with httpd := false, expected := true, mode := .sta }.espWifiDisconnect luck).taskAt t
      (.leaving luck.disconnect true)

/-- `sta_connect_task`, from one wait to the next -/
def taskTurn (t : ConnectTask) : Option Station :=
  match t.pc with
  | .greeting =>
    some (s.takeDnsSock.taskAt { t with config := s.taskConfig } .dnsDown)
  | .dnsDown => some ({ s with dnsTask := none }.taskAt t .httpDown)
  | .httpDown => if ¬s.HttpDone then none else some (s.tearDown luck t)
  | .leaving ok waited =>
    -- the wait of disconnect_current_sta ends with the station gone, or in a time-out
    if ok = true ∧ ¬(waited = true ∧ s.link.ap.isSome) then
      some ({ s with expected := false }.join luck t)
    else some ({ s with expected := false }.giveUp luck t)
  | .waiting =>
    if s.status ≠ .connecting then some (s.conclude luck t)
    else if luck.timeout then some (s.giveUp luck t)
    else none
  | .finishHttp =>
    if ¬s.HttpDone then none else some ({ s with httpd := false }.takeDnsSock.taskAt t .finishDns)
  | .finishDns => some { s with dnsTask := none, handlers := false, expected := false, task := none }

/-- `ensure_connect_session` -/
def ensureConnectSession : Option Station :=
  if s.running then some s
  else if !luck.getMode || !luck.register then none
  else
    some { s with
      previousMode := s.mode
      handlers := true
      expected := false
      running := true
      session := s.session + 1 }

/-- `start_sta_connect`. When the task cannot be created, a session that was started for it
is finished by the caller: the last part of the result says that it has to be. -/
def startStaConnect (ssid password : Bytes) : Station × Bool :=
  if peek ssid = 0 ∨ s.task.isSome then (s, false)
  else
    match s.ensureConnectSession luck with
    | none => (if luck.getMode then { s with previousMode := s.mode } else s, false)
    | some s' =>
      let s' := { s' with
        target := ⟨strncpy 33 ssid, strncpy 65 password⟩
        request := s.request + 1
        status := .connecting }
      if luck.taskCreate then
        ({ s' with task := some ⟨s'.session, s'.request, ⟨[], []⟩, .greeting⟩ }, false)
      else if s.running then ({ s' with status := .failed }, false)
      else ({ s' with status := .failed, running := false }, true)

/-- `wifi_provision_connect` -/
def wifiProvisionConnect (ssid password : Bytes) : Station :=
  match s.startStaConnect luck ssid password with
  | (s', true) => { s' with ui := .finishHttp }
  | (s', false) => s'

/-- `http_handle_connect`. The web server cannot wait for its own end. -/
def httpHandleConnect (ssid password : Bytes) : Station :=
  match s.startStaConnect luck ssid password with
  | (s', true) => { s' with http := .stuck }
  | (s', false) => s'

/-! ## The portal -/

/-- `http_start`; a server whose handlers cannot be registered is stopped again. -/
def httpStart : Station × Bool :=
  if luck.httpStart then ({ s with httpd := luck.httpRegister }, luck.httpRegister) else (s, false)

/-- The portal cannot be opened: up to the wait of `dns_stop` -/
def failPortal : Station := { { s with running := false }.takeDnsSock with ui := .failDns }

/-- The servers of a new session -/
def openPortal : Station × Bool :=
  if !(s.httpStart luck).2 then ((s.httpStart luck).1.failPortal, false)
  else if !((s.httpStart luck).1.dnsStart luck).2 then
    (((s.httpStart luck).1.dnsStart luck).1.failPortal, false)
  else (((s.httpStart luck).1.dnsStart luck).1, true)

/-- The session that `wifi_provision_start` begins -/
def newPortal : Station :=
  { s with
    mode := .apsta
    handlers := true
    status := .idle
    target := ⟨[], []⟩
    expected := false
    running := true
    session := s.session + 1 }

/-- `wifi_provision_start` up to the first wait, and whether it returns `ESP_OK` -/
def wifiProvisionStart : Station × Bool :=
  if s.running then (s, true)
  else if !luck.getMode then (s, false)
  else if !luck.netif || !luck.setMode then ({ s with previousMode := s.mode }, false)
  else if !luck.apConfig || !luck.register then
    ({ s with previousMode := s.mode, mode := .apsta }.espWifiSetMode s.mode luck.restoreMode, false)
  else { s with previousMode := s.mode }.newPortal.openPortal luck

/-- `wifi_provision_stop` up to its first wait -/
def wifiProvisionStop : Station := if s.running then { s with running := false, ui := .stopHttp } else s

/-- A call of the UI task, from one wait to the next -/
def uiTurn : Option Station :=
  match s.ui with
  | .idle => none
  | .stopHttp =>
    if ¬s.HttpDone then none else some { { s with httpd := false }.takeDnsSock with ui := .stopDns }
  | .stopDns =>
    some ({ s with
      dnsTask := none
      handlers := false
      target := ⟨[], []⟩
      expected := false
      status := .idle
      ui := .idle }.espWifiSetMode s.previousMode luck.restoreMode)
  | .finishHttp =>
    if ¬s.HttpDone then none else some { { s with httpd := false }.takeDnsSock with ui := .finishDns }
  | .finishDns => some { s with dnsTask := none, handlers := false, expected := false, ui := .idle }
  | .failDns => some { s with dnsTask := none, ui := .failHttp }
  | .failHttp =>
    if ¬s.HttpDone then none
    else
      some ({ s with httpd := false, handlers := false, ui := .idle }.espWifiSetMode s.previousMode
        luck.restoreMode)

/-! ## Scanning -/

/-- `http_handle_scan` up to the end of the blocking scan -/
def httpHandleScan : Station :=
  { s.espWifiDisconnect luck with http := .scanning (s.status ≠ .connecting) }

def httpTurn : Option Station :=
  match s.http with
  | .scanning restore =>
    if restore = true ∧ s.running = false then some { s.espWifiConnect luck with http := .idle }
    else some { s with http := .idle }
  | .idle | .stuck => none

/-- `_wlan_scan_task` up to the end of the blocking scan -/
def wlanScanStart : Station :=
  if s.link.ap.isSome then { s with scan := .scanning true }
  else { s.espWifiDisconnect luck with scan := .scanning false }

def wlanScanTurn : Option Station :=
  match s.scan with
  | .scanning true => some { s with scan := .idle }
  | .scanning false => some { s.espWifiConnect luck with scan := .idle }
  | .idle => none

/-! ## Events -/

/-- `wifi_retry_schedule` -/
def wifiRetrySchedule : Station := { s with retryArmed := luck.timerStart }

/-- `wifi_retry_cb` -/
def wifiRetryCb : Station :=
  if s.running = true ∨ s.connectedBit = true then s else s.espWifiConnect luck

/-- `wifi_event_handler` of `dlna.c` -/
def dlnaEventHandler : StaEvent → Station
  | .started => s.espWifiConnect luck
  | .disconnected _ =>
    if s.running then { s with connectedBit := false }
    else { s with connectedBit := false }.wifiRetrySchedule luck
  | .gotIp _ => { s with connectedBit := true }

/-- `wifi_event_handler` of `wifi_provision.c` -/
def provisionLost : Station :=
  if s.running = true ∧ s.status = .connecting then
    if s.expected then { s with expected := false } else { s with status := .failed }
  else s

/-- The station is joined to the target. -/
def OnTarget : Prop := ∃ a ∈ s.link.ap, a.config.ssid = s.target.ssid

instance : Decidable s.OnTarget := inferInstanceAs (Decidable (∃ a ∈ s.link.ap, a.config.ssid = s.target.ssid))

/-- The credentials of the target are saved. -/
def save : Station :=
  { (s.saveCredentials luck s.target).1 with
    status := if (s.saveCredentials luck s.target).2 then .success else .failed }

/-- `ip_event_handler` -/
def provisionGotIp : Station :=
  if s.running = true ∧ s.status = .connecting ∧ s.OnTarget then s.save luck else s

/-- The handlers of the component, when they are registered -/
def provisionHandlers (e : StaEvent) : Station :=
  if s.handlers then
    match e with
    | .started => s
    | .disconnected _ => s.provisionLost
    | .gotIp _ => s.provisionGotIp luck
  else s

/-- The event task handles the oldest event. -/
def deliver : Option Station :=
  match s.events with
  | [] => none
  | e :: es => some (({ s with events := es }.dlnaEventHandler luck e).provisionHandlers luck e)

/-- The station has joined. -/
def joined : Option Station :=
  match s.link with
  | .joining a => some { s with link := .associated a }
  | .idle | .associated _ | .online _ => none

/-- The station has an address, or another one. -/
def addressed : Option Station :=
  match s.link.ap with
  | some a => some { s with link := .online a, events := s.events ++ [.gotIp a] }
  | none => none

/-- The join fails, or the network is lost. -/
def lost : Option Station := if s.link = .idle then none else some s.leave

end Station

/-! ## The system -/

inductive Action where
  /-- the calls of the UI task -/
  | start (luck : Luck)
  | stop
  | connect (ssid password : Bytes) (luck : Luck)
  | ui (luck : Luck)
  /-- the web server -/
  | httpScan (luck : Luck)
  | httpConnect (ssid password : Bytes) (luck : Luck)
  | http (luck : Luck)
  | task (luck : Luck)
  | dns (n : Nat) (luck : Luck)
  /-- the WLAN scan of the screen -/
  | wlanScan (luck : Luck)
  | wlan (luck : Luck)
  /-- the driver -/
  | joined
  | addressed
  | lost
  | deliver (luck : Luck)
  | timer (luck : Luck)

namespace Station

/-- After `wifi_init`: the station has been started. -/
def boot (config : Credentials) (nvsSsid nvsPassword : Option Bytes) : Station where
  running := false
  status := .idle
  target := ⟨[], []⟩
  expected := false
  previousMode := .sta
  httpd := false
  handlers := false
  dnsTask := none
  dnsSock := none
  nvsSsid := nvsSsid
  nvsPassword := nvsPassword
  ui := .idle
  http := .idle
  task := none
  dns := []
  scan := .idle
  mode := .sta
  config := ⟨config, none⟩
  link := .idle
  events := [.started]
  connectedBit := false
  retryArmed := false
  session := 0
  request := 0
  sockets := 0
  dnsTasks := 0
  closes := []

def step (s : Station) : Action → Option Station
  | .start luck => if s.ui = .idle then some (s.wifiProvisionStart luck).1 else none
  | .stop => if s.ui = .idle then some s.wifiProvisionStop else none
  | .connect ssid password luck =>
    if s.ui = .idle then some (s.wifiProvisionConnect luck ssid password) else none
  | .ui luck => s.uiTurn luck
  | .httpScan luck =>
    if s.httpd = true ∧ s.http = .idle then some (s.httpHandleScan luck) else none
  | .httpConnect ssid password luck =>
    if s.httpd = true ∧ s.http = .idle then some (s.httpHandleConnect luck ssid password) else none
  | .http luck => s.httpTurn luck
  | .task luck => s.task.bind (s.taskTurn luck)
  | .dns n luck => s.dns[n]?.bind (s.dnsTurn luck n)
  | .wlanScan luck => if s.scan = .idle then some (s.wlanScanStart luck) else none
  | .wlan luck => s.wlanScanTurn luck
  | .joined => s.joined
  | .addressed => s.addressed
  | .lost => s.lost
  | .deliver luck => s.deliver luck
  | .timer luck =>
    if s.retryArmed then some ({ s with retryArmed := false }.wifiRetryCb luck) else none

/-! ## Runs -/

/-- Every call succeeds. -/
def allWell : Luck := {}

/-- The station of a speaker that has a network. -/
def bootedAtHome : Station :=
  boot ⟨ascii "home", ascii "secret"⟩ (some (ascii "home")) (some (ascii "secret"))

/-- The station joins what it is configured for, and the speaker hears of it. -/
def goOnline : List Action := [.deliver allWell, .joined, .addressed, .deliver allWell]

/-- The station leaves the network it is on, and joins the one that was chosen. -/
def choose (ssid : Bytes) : List Action :=
  [.connect ssid (ascii "password") allWell] ++ List.replicate 3 (.task allWell) ++
    [.deliver allWell, .task allWell, .joined, .addressed, .deliver allWell] ++
    List.replicate 3 (.task allWell)

end Station

end EspMiplay.Wifi
