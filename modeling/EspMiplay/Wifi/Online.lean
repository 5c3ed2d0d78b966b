import EspMiplay.Wifi.ProvisionSteps

/-!
# Back to the network

`dlna.c` has the station join again when it hears of a disconnect, after a delay. In a
session it does neither: disconnects and firings of the timer are ignored, and whoever ends
the session has to leave a station that joins, or somebody who will have it join.

## Results

* `OnlineInv.step`   — the duty is not lost outside of a session.
* `cared_for`        — the station is not left offline along runs whose sessions hand it back.
* `left_offline`     — a scan of the portal, and then the end of the session.
-/

namespace EspMiplay.Wifi

open Transition
open EspMiplay.Miplay (Bytes ascii)

/-- The driver does what the station needs to join. -/
def Luck.JoinsWell (luck : Luck) : Prop :=
  luck.connect = true ∧ luck.setConfig = true ∧ luck.timerStart = true

instance (luck : Luck) : Decidable luck.JoinsWell := inferInstanceAs (Decidable (_ ∧ _ ∧ _))

def Action.luck : Action → Luck
  | .start luck | .connect _ _ luck | .ui luck | .httpScan luck | .httpConnect _ _ luck | .http luck
  | .task luck | .dns _ luck | .wlanScan luck | .wlan luck | .deliver luck | .timer luck => luck
  | .stop | .joined | .addressed | .lost => Station.allWell

/-- Outside of a session this event has the station join. -/
def StaEvent.rejoins : StaEvent → Bool
  | .started | .disconnected _ => true
  | .gotIp _ => false

def Link.isOnline : Link → Bool
  | .online _ => true
  | .idle | .joining _ | .associated _ => false

/-- What the event does to `WIFI_CONNECTED_BIT` -/
def StaEvent.bit (bit : Bool) : StaEvent → Bool
  | .started => bit
  | .disconnected _ => false
  | .gotIp _ => true

namespace Station

variable (s : Station)

/-! ## What is wanted -/

def Scanning : Prop := (∃ restore, s.http = .scanning restore) ∨ s.scan ≠ .idle

/-- A join is under way, or its end is still to be handled. -/
def Outstanding : Prop := s.link ≠ .idle ∨ ∃ e ∈ s.events, e.rejoins = true

/-- Not left offline -/
def CaredFor : Prop :=
  s.running = false → ¬s.Scanning → s.link.isOnline = false → s.Outstanding ∨ s.retryArmed = true

/-- Somebody has the station join, be it at the end of a scan. -/
def Dutiful : Prop :=
  s.Outstanding ∨ s.retryArmed = true ∨ s.http = .scanning true ∨ s.scan = .scanning false

/-- There is a network to go back to. -/
def Stored (luck : Luck) : Prop := ∃ c ∈ s.loadStaConfig luck, c.ssid ≠ []

/-- The connect task does not end its session here, or hands the station back. -/
def EndsWell (luck : Luck) : TaskPc → Prop
  | .leaving ok waited => (ok = true ∧ ¬(waited = true ∧ s.link.ap.isSome)) ∨ s.Dutiful ∨ s.Stored luck
  | .waiting => s.Dutiful ∨ s.status ≠ .success ∧ s.Stored luck
  | _ => True

/-- A session ends with a station that joins, or that somebody will have join. -/
def HandsBack : Action → Prop
  | .stop => s.running = true → s.Dutiful
  | .task luck => s.running = true → ∀ t ∈ s.task, s.EndsWell luck t.pc
  | _ => True

structure OnlineInv : Prop where
  /-- when all events have been handled the bit is right -/
  heard : s.events.foldl StaEvent.bit s.connectedBit = s.link.isOnline
  handed : s.running = false → s.Dutiful

/-! ## The bit -/

variable {s} {s' : Station} {luck : Luck}

/-- Only a disconnect clears the bit. -/
theorem exists_rejoins_of_bit {es : List StaEvent} (h : es.foldl StaEvent.bit true = false) :
    ∃ e ∈ es, e.rejoins = true := by
  induction es with
  | nil => contradiction
  | cons e es ih =>
    cases e with
    | started => exact ⟨.started, List.mem_cons_self, rfl⟩
    | disconnected a => exact ⟨.disconnected a, List.mem_cons_self, rfl⟩
    | gotIp a =>
      obtain ⟨e, he, hRejoins⟩ := ih h
      exact ⟨e, List.mem_cons_of_mem _ he, hRejoins⟩

theorem JoinsBy.online {config : Attempt} {link : Link} (h : s.JoinsBy config link) :
    link.isOnline = s.link.isOnline := by
  rcases h with rfl | ⟨hIdle, rfl⟩
  · rfl
  · rw [hIdle]
    rfl

theorem JoinsBy.idle {config : Attempt} {link : Link} (h : s.JoinsBy config link)
    (hIdle : link = .idle) : s.link = .idle := by
  rcases h with rfl | ⟨hWas, -⟩
  · exact hIdle
  · exact hWas

/-- The bit of a station that has just been left. -/
theorem heard_left (s : Station) (a : Attempt) :
    (s.events ++ [StaEvent.disconnected a]).foldl StaEvent.bit s.connectedBit = Link.idle.isOnline := by
  rw [List.foldl_append]
  rfl

theorem outstanding_of_left {es : List StaEvent} {a : Attempt} (hEvents : s'.events = es ++ [.disconnected a]) :
    s'.Outstanding := by
  refine .inr ⟨.disconnected a, ?_, rfl⟩
  rw [hEvents]
  exact List.mem_concat_self

/-! ## The duty -/

/-- A join at most. -/
theorem Dutiful.keeps (h : s.Dutiful) (hLink : s'.link = .idle → s.link = .idle)
    (hEvents : s'.events = s.events) (hArmed : s'.retryArmed = s.retryArmed) (hHttp : s'.http = s.http)
    (hScan : s'.scan = s.scan) : s'.Dutiful := by
  rcases h with (hBusy | ⟨e, he, hRejoins⟩) | hTimer | hWeb | hScreen
  · exact .inl (.inl fun hIdle => hBusy (hLink hIdle))
  · exact .inl (.inr ⟨e, hEvents ▸ he, hRejoins⟩)
  · exact .inr (.inl (hArmed.trans hTimer))
  · exact .inr (.inr (.inl (hHttp.trans hWeb)))
  · exact .inr (.inr (.inr (hScan.trans hScreen)))

/-- The end of a session, or a join. -/
theorem OnlineInv.keeps (h : s.OnlineInv) (hOnline : s'.link.isOnline = s.link.isOnline)
    (hLink : s'.link = .idle → s.link = .idle)
    (hEvents : s'.events = s.events) (hBit : s'.connectedBit = s.connectedBit)
    (hArmed : s'.retryArmed = s.retryArmed) (hHttp : s'.http = s.http) (hScan : s'.scan = s.scan)
    (hRunning : s'.running = false → s.running = false) : s'.OnlineInv where
  heard := by rw [hEvents, hBit, hOnline, h.heard]
  handed hOff := (h.handed (hRunning hOff)).keeps hLink hEvents hArmed hHttp hScan

/-- Credentials that have been stored are joined with. -/
theorem link_restorePreviousSta (hStored : s.Stored luck) (hJoins : luck.JoinsWell) :
    (s.restorePreviousSta luck).link ≠ .idle := by
  obtain ⟨c, hc, hSsid⟩ := hStored
  unfold restorePreviousSta
  split
  · rename_i d hd
    obtain rfl : c = d := Option.some.inj (hc.symm.trans hd)
    rw [if_neg hSsid, if_pos hJoins.2.1]
    exact link_espWifiConnect hJoins.1
  · rename_i hNone
    rw [hNone] at hc
    contradiction

/-- A concluded request leaves the station as it is, or has it join. -/
theorem conclude_link (s : Station) (luck : Luck) (t : ConnectTask) :
    ∃ config link, s.conclude luck t =
        { s with
          config := config
          link := link
          running := false
          task := some { t with pc := .finishHttp } } ∧
      link.isOnline = s.link.isOnline ∧ (link = .idle → s.link = .idle) := by
  obtain ⟨config, link, hEq, hWhy⟩ := s.conclude_eq luck t
  refine ⟨config, link, hEq, ?_⟩
  rcases hWhy with ⟨-, rfl⟩ | ⟨_, -, -, hJoins⟩
  · exact ⟨rfl, id⟩
  · exact ⟨hJoins.online, hJoins.idle⟩

theorem OnlineInv.conclude (h : s.OnlineInv) (t : ConnectTask)
    (hEnds : s.running = true → s.Dutiful ∨ (s.conclude luck t).link ≠ .idle) :
    (s.conclude luck t).OnlineInv := by
  obtain ⟨_, link, hEq, hOnline, hLink⟩ := s.conclude_link luck t
  rw [hEq] at hEnds ⊢
  refine ⟨h.heard.trans hOnline.symm, fun _ => ?_⟩
  have hDuty : s.Dutiful ∨ link ≠ .idle := by
    cases hRunning : s.running with
    | false => exact .inl (h.handed hRunning)
    | true => exact hEnds hRunning
  rcases hDuty with hDutiful | hBusy
  · exact hDutiful.keeps hLink rfl rfl rfl rfl
  · exact .inl (.inl hBusy)

theorem OnlineInv.giveUp (h : s.OnlineInv) (t : ConnectTask) (hJoins : luck.JoinsWell)
    (hEnds : s.running = true → s.Dutiful ∨ s.Stored luck) : (s.giveUp luck t).OnlineInv := by
  have hFailed : OnlineInv { s with status := .failed } := ⟨h.heard, h.handed⟩
  refine hFailed.conclude t fun hRunning => (hEnds hRunning).imp_right fun hStored => ?_
  have hRestore : ({ s with status := .failed }.restorePreviousSta luck).link ≠ .idle :=
    link_restorePreviousSta hStored hJoins
  simpa [Station.conclude, taskAt] using hRestore

/-- The connect task -/
theorem OnlineInv.task (h : s.OnlineInv) {t : ConnectTask} (hTurn : s.taskTurn luck t = some s')
    (hJoins : luck.JoinsWell) (hEnds : s.running = true → s.EndsWell luck t.pc) : s'.OnlineInv := by
  unfold taskTurn at hTurn
  cases hPc : t.pc with
  | greeting =>
    obtain ⟨_, _, hTake⟩ := s.takeDnsSock_eq
    simp only [hPc, Option.some.injEq, hTake] at hTurn
    rw [← hTurn]
    exact ⟨h.heard, h.handed⟩
  | dnsDown =>
    simp only [hPc, Option.some.injEq] at hTurn
    rw [← hTurn]
    exact ⟨h.heard, h.handed⟩
  | httpDown =>
    obtain ⟨-, rfl⟩ : s.HttpDone ∧ s.tearDown luck t = s' := by simpa [hPc] using hTurn
    obtain ⟨_, _, _, _, _, hEq, hWhy⟩ := s.tearDown_eq luck t
    rw [hEq]
    rcases hWhy with ⟨rfl, rfl, -⟩ | ⟨a, -, rfl, rfl⟩
    · exact ⟨h.heard, h.handed⟩
    · exact ⟨s.heard_left a, fun _ => .inl (outstanding_of_left rfl)⟩
  | leaving ok waited =>
    rw [hPc] at hEnds
    have hSame : OnlineInv { s with expected := false } := ⟨h.heard, h.handed⟩
    simp only [hPc] at hTurn
    split at hTurn
    · obtain rfl := Option.some.inj hTurn
      rcases join_cases { s with expected := false } luck t with
        ⟨link, -, -, hEq, hBy⟩ | ⟨hRefused, -⟩
      · rw [hEq]
        exact hSame.keeps hBy.online hBy.idle rfl rfl rfl rfl rfl id
      · simp [hJoins.1, hJoins.2.1] at hRefused
    · rename_i hGo
      obtain rfl := Option.some.inj hTurn
      exact hSame.giveUp t hJoins fun hRunning => (hEnds hRunning).resolve_left hGo
  | waiting =>
    rw [hPc] at hEnds
    simp only [hPc] at hTurn
    split at hTurn
    · obtain rfl := Option.some.inj hTurn
      refine h.conclude t fun hRunning => (hEnds hRunning).imp_right fun hBack => ?_
      obtain ⟨hNot, hStored⟩ := hBack
      simpa [Station.conclude, hNot, taskAt] using link_restorePreviousSta hStored hJoins
    · split at hTurn
      · obtain rfl := Option.some.inj hTurn
        exact h.giveUp t hJoins fun hRunning => (hEnds hRunning).imp_right And.right
      · contradiction
  | finishHttp =>
    obtain ⟨-, rfl⟩ : s.HttpDone ∧ { s with httpd := false }.takeDnsSock.taskAt t .finishDns = s' := by
      simpa [hPc] using hTurn
    obtain ⟨_, _, hTake⟩ := takeDnsSock_eq { s with httpd := false }
    rw [hTake]
    exact ⟨h.heard, h.handed⟩
  | finishDns =>
    simp only [hPc, Option.some.injEq] at hTurn
    rw [← hTurn]
    exact ⟨h.heard, h.handed⟩

/-! ## Events -/

/-- Outside of a session a disconnect starts the timer. -/
theorem OnlineInv.deliver (h : s.OnlineInv) (hDeliver : s.deliver luck = some s')
    (hJoins : luck.JoinsWell) : s'.OnlineInv := by
  unfold Station.deliver at hDeliver
  split at hDeliver
  · contradiction
  · rename_i e es hEvents
    have hHeard : es.foldl StaEvent.bit (e.bit s.connectedBit) = s.link.isOnline := by
      rw [← h.heard, hEvents, List.foldl_cons]
    obtain ⟨_, _, _, _, hProvision⟩ :=
      provisionHandlers_eq ({ s with events := es }.dlnaEventHandler luck e) luck e
    obtain rfl := Option.some.inj hDeliver
    rw [hProvision]
    -- what is left of the duty when the event has been handled
    have hRest (hGot : e.rejoins = false) (hOff : s.running = false) : Dutiful { s with events := es } := by
      rcases h.handed hOff with (hBusy | ⟨d, hd, hRejoins⟩) | hOther
      · exact .inl (.inl hBusy)
      · rw [hEvents] at hd
        rcases List.mem_cons.1 hd with rfl | hLater
        · rw [hGot] at hRejoins
          contradiction
        · exact .inl (.inr ⟨d, hLater, hRejoins⟩)
      · exact .inr hOther
    cases e with
    | started =>
      obtain ⟨link, hEq, hBy, hBusy⟩ := espWifiConnect_busy { s with events := es } hJoins.1
      rw [dlnaEventHandler, hEq]
      exact ⟨hHeard.trans hBy.online.symm, fun _ => .inl (.inl hBusy)⟩
    | disconnected a =>
      rw [dlna_disconnected]
      refine ⟨hHeard, fun hOff => .inr (.inl ?_)⟩
      have hOff : s.running = false := hOff
      simp [hOff, hJoins.2.2]
    | gotIp a => exact ⟨hHeard, fun hOff => hRest rfl hOff⟩

/-- A firing of the timer that does nothing finds the station online, or its disconnect
still to be handled. -/
theorem OnlineInv.timer (h : s.OnlineInv) (hStep : s.step (.timer luck) = some s')
    (hJoins : luck.JoinsWell) : s'.OnlineInv := by
  obtain ⟨-, hEq⟩ := Option.ite_none_right_eq_some.1 hStep
  obtain rfl := Option.some.inj hEq
  unfold wifiRetryCb
  split
  · rename_i hWhy
    refine ⟨h.heard, fun hOff => .inl ?_⟩
    have hOff : s.running = false := hOff
    have hBit : s.connectedBit = true := hWhy.resolve_left (by simp [hOff])
    cases hOnline : s.link.isOnline with
    | true =>
      refine .inl fun hIdle => ?_
      have hIdle : s.link = .idle := hIdle
      rw [hIdle] at hOnline
      contradiction
    | false =>
      have hHeard := h.heard
      rw [hBit, hOnline] at hHeard
      exact .inr (exists_rejoins_of_bit hHeard)
  · obtain ⟨link, hEq, hBy, hBusy⟩ := espWifiConnect_busy { s with retryArmed := false } hJoins.1
    rw [hEq]
    exact ⟨h.heard.trans hBy.online.symm, fun _ => .inl (.inl hBusy)⟩

/-! ## Calls -/

theorem OnlineInv.ui (h : s.OnlineInv) (hTurn : s.uiTurn luck = some s') : s'.OnlineInv := by
  obtain ⟨_, _, _, _, _, _, _, _, _, _, rfl, -, -, -⟩ := uiTurn_eq hTurn
  exact ⟨h.heard, h.handed⟩

/-- A session that cannot be begun leaves the duty where it was. -/
theorem OnlineInv.start (h : s.OnlineInv) (luck : Luck) : (s.wifiProvisionStart luck).1.OnlineInv := by
  rcases s.wifiProvisionStart_cases luck with ⟨-, hEq⟩ | ⟨hOff, ⟨_, _, hEq⟩ | hEq⟩
  · rw [hEq]
    exact h
  · rw [hEq]
    exact ⟨h.heard, h.handed⟩
  · have hDuty := h.handed hOff
    rw [hEq]
    rcases openPortal_cases { s with previousMode := s.mode }.newPortal luck with
      ⟨_, _, _, hOpen, -⟩ | ⟨httpd, hOpen⟩
    · rw [hOpen]
      exact ⟨h.heard, fun _ => hDuty⟩
    · obtain ⟨_, _, hTake⟩ :=
        takeDnsSock_eq { { s with previousMode := s.mode }.newPortal with httpd := httpd, running := false }
      rw [hOpen, failPortal, hTake]
      exact ⟨h.heard, fun _ => hDuty⟩

/-- A connect request begins a session, or leaves it as it was. -/
theorem OnlineInv.startSta (h : s.OnlineInv) (luck : Luck) (ssid password : Bytes) :
    (s.startStaConnect luck ssid password).1.OnlineInv := by
  rcases s.startStaConnect_cases luck ssid password with ⟨_, hEq⟩ | ⟨-, _, _, _, _, -, hEq | ⟨-, hEq⟩⟩
  · rw [hEq]
    exact ⟨h.heard, h.handed⟩
  · rw [hEq]
    exact ⟨h.heard, by rintro ⟨⟩⟩
  · rw [hEq]
    exact ⟨h.heard, h.handed⟩

theorem OnlineInv.connect (h : s.OnlineInv) (luck : Luck) (ssid password : Bytes) :
    (s.wifiProvisionConnect luck ssid password).OnlineInv := by
  have hStart := h.startSta luck ssid password
  unfold wifiProvisionConnect
  split
  · rename_i r hEq
    rw [hEq] at hStart
    exact ⟨hStart.heard, hStart.handed⟩
  · rename_i r hEq
    rwa [hEq] at hStart

/-- A web server that is stuck had not been scanning. -/
theorem OnlineInv.httpConnect (h : s.OnlineInv) (hHttp : s.http = .idle) (luck : Luck)
    (ssid password : Bytes) : (s.httpHandleConnect luck ssid password).OnlineInv := by
  have hStart := h.startSta luck ssid password
  have hIdle : (s.startStaConnect luck ssid password).1.http = .idle := by
    rcases s.startStaConnect_cases luck ssid password with ⟨_, hEq⟩ | ⟨-, _, _, _, _, -, hEq | ⟨-, hEq⟩⟩ <;>
      rw [hEq] <;> exact hHttp
  unfold httpHandleConnect
  split
  · rename_i r hEq
    rw [hEq] at hStart hIdle
    refine ⟨hStart.heard, fun hOff => ?_⟩
    rcases hStart.handed hOff with hOut | hTimer | hWeb | hScreen
    · exact .inl hOut
    · exact .inr (.inl hTimer)
    · rw [hIdle] at hWeb
      contradiction
    · exact .inr (.inr (.inr hScreen))
  · rename_i r hEq
    rwa [hEq] at hStart

/-! ## Scans -/

/-- A scan that is begun, by a task that was not scanning. -/
theorem Dutiful.scanning (h : s.Dutiful) (hHttp : s.http = .idle) (http : HttpPc) :
    Dutiful { s with http := http } := by
  rcases h with hOut | hTimer | hWeb | hScreen
  · exact .inl hOut
  · exact .inr (.inl hTimer)
  · rw [hHttp] at hWeb
    contradiction
  · exact .inr (.inr (.inr hScreen))

theorem OnlineInv.httpScan (h : s.OnlineInv) (hHttp : s.http = .idle) (luck : Luck) :
    (s.httpHandleScan luck).OnlineInv := by
  obtain ⟨link, events, hEq, hWhy⟩ := s.httpHandleScan_eq luck
  rw [hEq]
  rcases hWhy with ⟨rfl, rfl, -⟩ | ⟨a, -, rfl, rfl⟩
  · exact ⟨h.heard, fun hOff => (h.handed hOff).scanning hHttp _⟩
  · exact ⟨s.heard_left a, fun _ => .inl (outstanding_of_left rfl)⟩

/-- The web server has the station join at the end of its scan, unless a session is
running or a request was under way when the scan began. -/
theorem OnlineInv.http (h : s.OnlineInv) (hTurn : s.httpTurn luck = some s') (hJoins : luck.JoinsWell) :
    s'.OnlineInv := by
  unfold httpTurn at hTurn
  split at hTurn
  · rename_i restore hScan
    split at hTurn
    · obtain ⟨link, hEq, hBy, hBusy⟩ := s.espWifiConnect_busy hJoins.1
      rw [hEq] at hTurn
      rw [← Option.some.inj hTurn]
      exact ⟨h.heard.trans hBy.online.symm, fun _ => .inl (.inl hBusy)⟩
    · rename_i hNot
      rw [← Option.some.inj hTurn]
      refine ⟨h.heard, fun hOff => ?_⟩
      have hOff : s.running = false := hOff
      rcases h.handed hOff with hOut | hTimer | hWeb | hScreen
      · exact .inl hOut
      · exact .inr (.inl hTimer)
      · rw [hScan] at hWeb
        exact absurd ⟨HttpPc.scanning.inj hWeb, hOff⟩ hNot
      · exact .inr (.inr (.inr hScreen))
  · contradiction
  · contradiction

theorem OnlineInv.wlanScan (h : s.OnlineInv) (hScan : s.scan = .idle) (luck : Luck) :
    (s.wlanScanStart luck).OnlineInv := by
  unfold wlanScanStart
  split
  · refine ⟨h.heard, fun hOff => ?_⟩
    rcases h.handed hOff with hOut | hTimer | hWeb | hScreen
    · exact .inl hOut
    · exact .inr (.inl hTimer)
    · exact .inr (.inr (.inl hWeb))
    · rw [hScan] at hScreen
      contradiction
  · rcases s.espWifiDisconnect_cases luck with ⟨hEq, -⟩ | ⟨a, -, hEq⟩
    · rw [hEq]
      exact ⟨h.heard, fun _ => .inr (.inr (.inr rfl))⟩
    · rw [hEq]
      exact ⟨s.heard_left a, fun _ => .inl (outstanding_of_left rfl)⟩

theorem OnlineInv.wlan (h : s.OnlineInv) (hTurn : s.wlanScanTurn luck = some s') (hJoins : luck.JoinsWell) :
    s'.OnlineInv := by
  unfold wlanScanTurn at hTurn
  split at hTurn
  · rename_i hScan
    rw [← Option.some.inj hTurn]
    refine ⟨h.heard, fun hOff => ?_⟩
    rcases h.handed hOff with hOut | hTimer | hWeb | hScreen
    · exact .inl hOut
    · exact .inr (.inl hTimer)
    · exact .inr (.inr (.inl hWeb))
    · rw [hScan] at hScreen
      contradiction
  · obtain ⟨link, hEq, hBy, hBusy⟩ := s.espWifiConnect_busy hJoins.1
    rw [hEq] at hTurn
    rw [← Option.some.inj hTurn]
    exact ⟨h.heard.trans hBy.online.symm, fun _ => .inl (.inl hBusy)⟩
  · contradiction

/-! ## All steps -/

theorem OnlineInv.step (h : s.OnlineInv) {a : Action} (hStep : s.step a = some s')
    (hJoins : a.luck.JoinsWell) (hBack : s.HandsBack a) : s'.OnlineInv := by
  cases a with
  | start luck =>
    obtain ⟨-, rfl⟩ := step_start hStep
    exact h.start luck
  | stop =>
    obtain ⟨-, rfl⟩ := step_stop hStep
    unfold wifiProvisionStop
    split
    · rename_i hRunning
      exact ⟨h.heard, fun _ => hBack hRunning⟩
    · exact h
  | connect ssid password luck =>
    obtain ⟨-, rfl⟩ := step_connect hStep
    exact h.connect luck ssid password
  | ui luck => exact h.ui hStep
  | httpScan luck =>
    obtain ⟨⟨-, hHttp⟩, rfl⟩ := step_httpScan hStep
    exact h.httpScan hHttp luck
  | httpConnect ssid password luck =>
    obtain ⟨⟨-, hHttp⟩, rfl⟩ := step_httpConnect hStep
    exact h.httpConnect hHttp luck ssid password
  | http luck => exact h.http hStep hJoins
  | task luck =>
    obtain ⟨t, hTask, hTurn⟩ := step_task hStep
    exact h.task hTurn hJoins fun hRunning => hBack hRunning t hTask
  | dns n luck =>
    obtain ⟨t, -, hTurn⟩ := step_dns hStep
    unfold dnsTurn at hTurn
    split at hTurn
    · split at hTurn
      · exact Option.some.inj hTurn ▸ ⟨h.heard, h.handed⟩
      · split at hTurn
        · exact Option.some.inj hTurn ▸ ⟨h.heard, h.handed⟩
        · exact Option.some.inj hTurn ▸ ⟨h.heard, h.handed⟩
    · split at hTurn
      · contradiction
      · exact Option.some.inj hTurn ▸ ⟨h.heard, h.handed⟩
  | wlanScan luck =>
    obtain ⟨hScan, rfl⟩ := step_wlanScan hStep
    exact h.wlanScan hScan luck
  | wlan luck => exact h.wlan hStep hJoins
  | joined =>
    obtain ⟨a, hIs, rfl⟩ := joined_eq hStep
    refine h.keeps ?_ (by rintro ⟨⟩) rfl rfl rfl rfl rfl id
    rw [hIs]
    rfl
  | addressed =>
    obtain ⟨a, -, rfl⟩ := addressed_eq hStep
    refine ⟨?_, fun _ => .inl (.inl (by rintro ⟨⟩))⟩
    rw [List.foldl_append]
    rfl
  | lost =>
    obtain ⟨a, -, rfl⟩ := lost_eq hStep
    exact ⟨s.heard_left a, fun _ => .inl (outstanding_of_left rfl)⟩
  | deliver luck => exact h.deliver hStep hJoins
  | timer luck => exact h.timer hStep hJoins

theorem onlineInv_boot (config : Credentials) (nvsSsid nvsPassword : Option Bytes) :
    OnlineInv (boot config nvsSsid nvsPassword) where
  heard := rfl
  handed _ := .inl (.inr ⟨.started, List.mem_cons_self, rfl⟩)

/-- Between the scans the duty is with the station or the timer. -/
theorem OnlineInv.caredFor (h : s.OnlineInv) : s.CaredFor := by
  intro hOff hQuiet _
  rcases h.handed hOff with hOut | hTimer | hWeb | hScreen
  · exact .inl hOut
  · exact .inr hTimer
  · exact absurd (.inl ⟨true, hWeb⟩) hQuiet
  · exact absurd (.inr (by simp [hScreen])) hQuiet

/-- **Every state.** The station is not left offline, as long as every session hands it
back and the driver does what it is asked to. -/
theorem cared_for (config : Credentials) (nvsSsid nvsPassword : Option Bytes) (as : List Action)
    (s : Station)
    (h : Along step (fun s a _ => a.luck.JoinsWell ∧ s.HandsBack a) (boot config nvsSsid nvsPassword) as)
    (hRun : run step (boot config nvsSsid nvsPassword) as = some s) : s.CaredFor := by
  have hInv : Along step (fun _ _ s' => s'.OnlineInv) (boot config nvsSsid nvsPassword) as :=
    Along.of_invariant (fun _ _ _ hInv hStep hOk =>
      have hNext := hInv.step hStep hOk.1 hOk.2
      ⟨hNext, hNext⟩) (onlineInv_boot config nvsSsid nvsPassword) h
  exact (Along.final OnlineInv (fun _ _ _ hNext => hNext) (onlineInv_boot config nvsSsid nvsPassword)
    hInv hRun).caredFor

/-! ## The end of a session -/

instance : Decidable s.Outstanding := inferInstanceAs (Decidable (_ ∨ _))

instance : Decidable s.Dutiful := inferInstanceAs (Decidable (_ ∨ _))

instance : Decidable (s.Stored luck) := inferInstanceAs (Decidable (∃ c ∈ s.loadStaConfig luck, c.ssid ≠ []))

instance : ∀ pc, Decidable (s.EndsWell luck pc)
  | .leaving ok waited =>
    inferInstanceAs (Decidable ((ok = true ∧ ¬(waited = true ∧ s.link.ap.isSome)) ∨ s.Dutiful ∨ s.Stored luck))
  | .waiting => inferInstanceAs (Decidable (s.Dutiful ∨ s.status ≠ .success ∧ s.Stored luck))
  | .greeting | .dnsDown | .httpDown | .finishHttp | .finishDns => .isTrue trivial

instance : ∀ a, Decidable (s.HandsBack a)
  | .stop => inferInstanceAs (Decidable (s.running = true → s.Dutiful))
  | .task luck => inferInstanceAs (Decidable (s.running = true → ∀ t ∈ s.task, s.EndsWell luck t.pc))
  | .start _ | .connect _ _ _ | .ui _ | .httpScan _ | .httpConnect _ _ _ | .http _ | .dns _ _
  | .wlanScan _ | .wlan _ | .joined | .addressed | .lost | .deliver _ | .timer _ => .isTrue trivial

/-- The new network is lost again, after the session. -/
theorem cared_for_of_cafe :
    ∃ s, run step bootedAtHome (goOnline ++ choose (ascii "cafe") ++ [.lost, .deliver allWell]) = some s ∧
      s.CaredFor := by
  have hEnds : (run step bootedAtHome
      (goOnline ++ choose (ascii "cafe") ++ [.lost, .deliver allWell])).isSome = true := by decide +kernel
  obtain ⟨s, hs⟩ := Option.isSome_iff_exists.1 hEnds
  exact ⟨s, hs, cared_for _ _ _ _ s (by decide +kernel) hs⟩

/-- A scan of the portal takes the station off its network, and the session hears of it. -/
theorem left_offline :
    ¬∀ (config : Credentials) (nvsSsid nvsPassword : Option Bytes) (as : List Action) (s : Station),
      Along step (fun _ a _ => a.luck.JoinsWell) (boot config nvsSsid nvsPassword) as →
        run step (boot config nvsSsid nvsPassword) as = some s → s.CaredFor := by
  intro hAll
  have hLeft : (run step bootedAtHome
      (goOnline ++ [.start allWell, .httpScan allWell, .deliver allWell, .http allWell, .stop])).any
      (fun s => decide (s.running = false ∧ s.http = .idle ∧ s.scan = .idle ∧ s.link = .idle ∧
        s.events = [] ∧ s.retryArmed = false)) = true := by decide +kernel
  obtain ⟨s, hs, hIs⟩ := (Option.any_eq_true _ _).1 hLeft
  obtain ⟨hOff, hHttp, hScan, hLink, hEvents, hTimer⟩ := of_decide_eq_true hIs
  have hQuiet : ¬s.Scanning := by
    rintro (⟨_, hWeb⟩ | hScreen)
    · rw [hHttp] at hWeb
      contradiction
    · exact hScreen hScan
  have hOnline : s.link.isOnline = false := by rw [hLink, Link.isOnline]
  rcases hAll _ _ _ _ s (by decide +kernel) hs hOff hQuiet hOnline with (hBusy | ⟨e, he, -⟩) | hArmed
  · exact hBusy hLink
  · rw [hEvents] at he
    contradiction
  · rw [hTimer] at hArmed
    contradiction

end Station

end EspMiplay.Wifi
