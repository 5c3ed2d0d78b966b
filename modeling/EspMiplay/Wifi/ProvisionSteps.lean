import EspMiplay.Wifi.Provision

/-!
# What the steps of provisioning do

Each function of the model is described by what it leaves in the state, so that an
invariant need not look into it: `_cases` where there are several outcomes, `_eq` where
there is one with some fields left open.
-/

namespace EspMiplay.Wifi.Station

open EspMiplay.Miplay (Bytes strncpy)

variable {s s' : Station} {luck : Luck}

/-! ## The driver -/

/-- A join starts on an idle station or not at all. -/
def JoinsBy (s : Station) (config : Attempt) (link : Link) : Prop :=
  link = s.link ∨ s.link = .idle ∧ link = .joining config

theorem espWifiConnect_eq (s : Station) (luck : Luck) :
    ∃ link, s.espWifiConnect luck = { s with link := link } ∧ s.JoinsBy s.config link := by
  unfold espWifiConnect
  split
  · rename_i hIdle
    exact ⟨_, rfl, .inr ⟨hIdle.2, rfl⟩⟩
  · exact ⟨s.link, rfl, .inl rfl⟩

/-- A call that succeeds leaves no idle station behind. -/
theorem link_espWifiConnect (hOk : luck.connect = true) : (s.espWifiConnect luck).link ≠ .idle := by
  unfold espWifiConnect
  split
  · rintro ⟨⟩
  · rename_i hBusy
    exact fun hIdle => hBusy ⟨hOk, hIdle⟩

/-- A join that is begun: the station is not idle after it. -/
theorem espWifiConnect_busy (s : Station) (hOk : luck.connect = true) :
    ∃ link, s.espWifiConnect luck = { s with link := link } ∧ s.JoinsBy s.config link ∧ link ≠ .idle := by
  obtain ⟨link, hEq, hBy⟩ := s.espWifiConnect_eq luck
  have hBusy := link_espWifiConnect (s := s) hOk
  rw [hEq] at hBusy
  exact ⟨link, hEq, hBy, hBusy⟩

theorem leave_of_attempt {a : Attempt} (h : s.link.attempt = some a) :
    s.leave = { s with link := .idle, events := s.events ++ [.disconnected a] } := by
  unfold leave
  split
  · rename_i b hb
    obtain rfl : a = b := Option.some.inj (h.symm.trans hb)
    rfl
  · rename_i hNone
    rw [h] at hNone
    contradiction

theorem attempt_eq_none {l : Link} : l.attempt = none ↔ l = .idle := by
  cases l <;> simp [Link.attempt]

theorem espWifiDisconnect_cases (s : Station) (luck : Luck) :
    s.espWifiDisconnect luck = s ∧ (luck.disconnect = false ∨ s.link = .idle) ∨
      ∃ a, s.link.attempt = some a ∧
        s.espWifiDisconnect luck = { s with link := .idle, events := s.events ++ [.disconnected a] } := by
  unfold espWifiDisconnect
  cases hOk : luck.disconnect with
  | false => exact .inl ⟨rfl, .inl rfl⟩
  | true =>
    cases hLink : s.link.attempt with
    | none =>
      have hIdle : s.link = .idle := attempt_eq_none.1 hLink
      exact .inl ⟨by simp [leave, hLink], .inr hIdle⟩
    | some a => exact .inr ⟨a, rfl, leave_of_attempt hLink⟩

theorem espWifiSetMode_eq (s : Station) (mode : WifiMode) (ok : Bool) :
    s.espWifiSetMode mode ok = { s with mode := if ok then mode else s.mode } := by
  cases ok <;> rfl

theorem takeDnsSock_of_none (h : s.dnsSock = none) : s.takeDnsSock = s := by
  simp [takeDnsSock, h]

theorem takeDnsSock_eq (s : Station) :
    ∃ sock closes, s.takeDnsSock = { s with dnsSock := sock, closes := closes } := by
  unfold takeDnsSock
  split
  · exact ⟨_, _, rfl⟩
  · exact ⟨s.dnsSock, s.closes, rfl⟩

/-! ## The connect task -/

/-- The station goes back to the stored network, or stays as it is. -/
theorem restorePreviousSta_eq (s : Station) (luck : Luck) :
    ∃ config link, s.restorePreviousSta luck = { s with config := config, link := link } ∧
      (config = s.config ∧ link = s.link ∨
        ∃ c, c.ssid ≠ [] ∧ config = ⟨c, none⟩ ∧ s.JoinsBy config link) := by
  unfold restorePreviousSta
  split
  · rename_i c hStored
    split
    · exact ⟨s.config, s.link, rfl, .inl ⟨rfl, rfl⟩⟩
    · rename_i hSsid
      split
      · obtain ⟨link, hEq, hLink⟩ := espWifiConnect_eq { s with config := ⟨c, none⟩ } luck
        exact ⟨⟨c, none⟩, link, hEq, .inr ⟨c, hSsid, rfl, hLink⟩⟩
      · exact ⟨s.config, s.link, rfl, .inl ⟨rfl, rfl⟩⟩
  · exact ⟨s.config, s.link, rfl, .inl ⟨rfl, rfl⟩⟩

theorem conclude_eq (s : Station) (luck : Luck) (t : ConnectTask) :
    ∃ config link, s.conclude luck t =
        { s with
          config := config
          link := link
          running := false
          task := some { t with pc := .finishHttp } } ∧
      (config = s.config ∧ link = s.link ∨
        ∃ c, c.ssid ≠ [] ∧ config = ⟨c, none⟩ ∧ s.JoinsBy config link) := by
  unfold conclude taskAt
  split
  · obtain ⟨config, link, hEq, hLink⟩ := s.restorePreviousSta_eq luck
    exact ⟨config, link, by rw [hEq], hLink⟩
  · exact ⟨s.config, s.link, rfl, .inl ⟨rfl, rfl⟩⟩

theorem giveUp_eq (s : Station) (luck : Luck) (t : ConnectTask) :
    ∃ config link, s.giveUp luck t =
      { s with
        status := .failed
        config := config
        link := link
        running := false
        task := some { t with pc := .finishHttp } } :=
  let ⟨config, link, hEq, _⟩ := conclude_eq { s with status := .failed } luck t
  ⟨config, link, hEq⟩

/-- The join starts, or the task gives up. -/
theorem join_cases (s : Station) (luck : Luck) (t : ConnectTask) :
    (∃ link, luck.setConfig = true ∧ luck.connect = true ∧
      s.join luck t =
        { s with
          config := ⟨t.config, some t.request⟩
          link := link
          task := some { t with pc := .waiting } } ∧
      s.JoinsBy ⟨t.config, some t.request⟩ link) ∨
    (luck.setConfig = false ∨ luck.connect = false) ∧
      ∃ config link, s.join luck t =
        { s with
          status := .failed
          config := config
          link := link
          running := false
          task := some { t with pc := .finishHttp } } := by
  unfold join
  cases hConfig : luck.setConfig with
  | false =>
    obtain ⟨config, link, hEq⟩ := s.giveUp_eq luck t
    exact .inr ⟨.inl rfl, config, link, hEq⟩
  | true =>
    cases hConnect : luck.connect with
    | false =>
      obtain ⟨config, link, hEq⟩ :=
        giveUp_eq { s with config := ⟨t.config, some t.request⟩ } luck t
      exact .inr ⟨.inr rfl, config, link, hEq⟩
    | true =>
      obtain ⟨link, hEq, hLink⟩ :=
        espWifiConnect_eq { s with config := ⟨t.config, some t.request⟩ } luck
      exact .inl ⟨link, rfl, rfl, by simp [hEq, taskAt], hLink⟩

/-- The station leaves its network for the join, when it has one. -/
theorem tearDown_eq (s : Station) (luck : Luck) (t : ConnectTask) :
    ∃ mode link events ok waited, s.tearDown luck t =
        { s with
          httpd := false
          expected := true
          mode := mode
          link := link
          events := events
          task := some { t with pc := .leaving ok waited } } ∧
      (link = s.link ∧ events = s.events ∧ (ok = true → s.link.ap = none ∧ waited = false) ∨
        ∃ a, s.link.ap = some a ∧ link = .idle ∧ events = s.events ++ [.disconnected a]) := by
  unfold tearDown taskAt
  split
  · exact ⟨s.mode, s.link, s.events, false, false, rfl, .inl ⟨rfl, rfl, by simp⟩⟩
  · split
    · rename_i hNone
      exact ⟨.sta, s.link, s.events, true, false, rfl, .inl ⟨rfl, rfl, fun _ => ⟨by simpa using hNone, rfl⟩⟩⟩
    · rename_i hSome
      obtain ⟨hEq, hWhy⟩ | ⟨a, ha, hEq⟩ := espWifiDisconnect_cases
        { s with httpd := false, expected := true, mode := .sta } luck
      · refine ⟨.sta, s.link, s.events, luck.disconnect, true, by rw [hEq], .inl ⟨rfl, rfl, fun hOk => ?_⟩⟩
        rcases hWhy with hFailed | hIdle
        · rw [hFailed] at hOk
          contradiction
        · simp [Link.ap, show s.link = .idle from hIdle] at hSome
      · refine ⟨.sta, _, _, luck.disconnect, true, by rw [hEq], .inr ⟨a, ?_, rfl, rfl⟩⟩
        have hAp : s.link.ap ≠ none := by simpa using hSome
        cases hLink : s.link <;> simp_all [Link.ap, Link.attempt]

/-! ## A session -/

theorem ensureConnectSession_cases (s : Station) (luck : Luck) :
    s.running = true ∧ s.ensureConnectSession luck = some s ∨
    s.running = false ∧ s.ensureConnectSession luck = none ∨
    s.running = false ∧ s.ensureConnectSession luck =
      some { s with
        previousMode := s.mode
        handlers := true
        expected := false
        running := true
        session := s.session + 1 } := by
  unfold ensureConnectSession
  cases hRunning : s.running <;> cases luck.getMode <;> cases luck.register <;> simp

/-- A connect request is refused, starts the task, or fails to start it; only in a session of
its own is there something left to do then. -/
theorem startStaConnect_cases (s : Station) (luck : Luck) (ssid password : Bytes) :
    (∃ mode, s.startStaConnect luck ssid password = ({ s with previousMode := mode }, false)) ∨
    s.task = none ∧ ∃ mode expected handlers session,
      (s.running = true ∧ mode = s.previousMode ∧ expected = s.expected ∧ handlers = s.handlers ∧
          session = s.session ∨
        s.running = false ∧ mode = s.mode ∧ expected = false ∧ handlers = true ∧
          session = s.session + 1) ∧
      (s.startStaConnect luck ssid password =
          ({ s with
            previousMode := mode
            expected := expected
            handlers := handlers
            session := session
            running := true
            target := ⟨strncpy 33 ssid, strncpy 65 password⟩
            request := s.request + 1
            status := .connecting
            task := some ⟨session, s.request + 1, ⟨[], []⟩, .greeting⟩ }, false) ∨
        luck.taskCreate = false ∧ s.startStaConnect luck ssid password =
          ({ s with
            previousMode := mode
            expected := expected
            handlers := handlers
            session := session
            running := s.running
            target := ⟨strncpy 33 ssid, strncpy 65 password⟩
            request := s.request + 1
            status := .failed }, !s.running)) := by
  unfold startStaConnect
  split
  · exact .inl ⟨s.previousMode, rfl⟩
  · rename_i hAccepted
    have hTask : s.task = none := by simpa using (not_or.1 hAccepted).2
    rcases s.ensureConnectSession_cases luck with ⟨hRunning, hEq⟩ | ⟨hRunning, hEq⟩ | ⟨hRunning, hEq⟩
    · refine .inr ⟨hTask, s.previousMode, s.expected, s.handlers, s.session,
        .inl ⟨hRunning, rfl, rfl, rfl, rfl⟩, ?_⟩
      rw [hEq]
      cases hCreate : luck.taskCreate <;> simp [hRunning, hTask]
    · refine .inl ?_
      rw [hEq]
      cases luck.getMode
      · exact ⟨s.previousMode, by simp⟩
      · exact ⟨s.mode, by simp [hRunning]⟩
    · refine .inr ⟨hTask, s.mode, false, true, s.session + 1, .inr ⟨hRunning, rfl, rfl, rfl, rfl⟩, ?_⟩
      rw [hEq]
      cases hCreate : luck.taskCreate <;> simp [hRunning, hTask]

/-- The servers of a new session come up, or the session fails. -/
theorem openPortal_cases (s : Station) (luck : Luck) :
    (∃ dnsTask dns dnsTasks,
      s.openPortal luck =
        ({ s with httpd := true, dnsTask := dnsTask, dns := dns, dnsTasks := dnsTasks }, true) ∧
      (s.dnsTask.isSome ∧ dnsTask = s.dnsTask ∧ dns = s.dns ∧ dnsTasks = s.dnsTasks ∨
        s.dnsTask = none ∧ dnsTask = some (s.dnsTasks + 1) ∧
          dns = s.dns ++ [⟨s.dnsTasks + 1, none⟩] ∧ dnsTasks = s.dnsTasks + 1)) ∨
    ∃ httpd, s.openPortal luck = ({ s with httpd := httpd }.failPortal, false) := by
  unfold openPortal httpStart
  cases luck.httpStart with
  | false => exact .inr ⟨s.httpd, rfl⟩
  | true =>
    cases luck.httpRegister with
    | false => exact .inr ⟨false, rfl⟩
    | true =>
      unfold dnsStart
      cases hTask : s.dnsTask with
      | some k => exact .inl ⟨s.dnsTask, s.dns, s.dnsTasks, by simp [hTask], .inl ⟨rfl, hTask.symm ▸ rfl, rfl, rfl⟩⟩
      | none =>
        cases luck.dnsCreate with
        | false => exact .inr ⟨true, by simp⟩
        | true =>
          exact .inl ⟨some (s.dnsTasks + 1), s.dns ++ [⟨s.dnsTasks + 1, none⟩], s.dnsTasks + 1,
            by simp, .inr ⟨rfl, rfl, rfl, rfl⟩⟩

/-- `wifi_provision_start` finds a session, fails early, or begins a session. -/
theorem wifiProvisionStart_cases (s : Station) (luck : Luck) :
    s.running = true ∧ s.wifiProvisionStart luck = (s, true) ∨
    s.running = false ∧
      ((∃ previous mode, s.wifiProvisionStart luck =
          ({ s with previousMode := previous, mode := mode }, false)) ∨
        s.wifiProvisionStart luck = { s with previousMode := s.mode }.newPortal.openPortal luck) := by
  by_cases hRunning : s.running = true
  · exact .inl ⟨hRunning, if_pos hRunning⟩
  · refine .inr ⟨by simpa using hRunning, ?_⟩
    rw [wifiProvisionStart, if_neg hRunning]
    split
    · exact .inl ⟨s.previousMode, s.mode, rfl⟩
    · split
      · exact .inl ⟨s.mode, s.mode, rfl⟩
      · split
        · exact .inl ⟨s.mode, if luck.restoreMode then s.mode else .apsta, by rw [espWifiSetMode_eq]⟩
        · exact .inr rfl

/-- A call of the UI task closes servers and ends sessions; at most it resets the status. -/
theorem uiTurn_eq (h : s.uiTurn luck = some s') :
    ∃ status target expected httpd handlers dnsTask dnsSock ui mode closes, s' =
      { s with
        status := status
        target := target
        expected := expected
        httpd := httpd
        handlers := handlers
        dnsTask := dnsTask
        dnsSock := dnsSock
        ui := ui
        mode := mode
        closes := closes } ∧
      (status = .idle ∨ status = s.status ∧ target = s.target) ∧
      (expected = true → s.expected = true) ∧ (httpd = true → s.httpd = true) := by
  -- http_stop, and the socket of the name server with it
  have hTaken : ∀ ui, ∃ dnsSock closes, { { s with httpd := false }.takeDnsSock with ui := ui } =
      { s with httpd := false, dnsSock := dnsSock, closes := closes, ui := ui } := by
    intro ui
    obtain ⟨sock, closes, hTake⟩ := takeDnsSock_eq { s with httpd := false }
    exact ⟨sock, closes, by rw [hTake]⟩
  unfold uiTurn at h
  cases hUi : s.ui with
  | idle => simp [hUi] at h
  | stopHttp =>
    obtain ⟨-, rfl⟩ : s.HttpDone ∧ { { s with httpd := false }.takeDnsSock with ui := .stopDns } = s' := by
      simpa [hUi] using h
    obtain ⟨_, _, hEq⟩ := hTaken .stopDns
    exact ⟨_, _, _, _, _, _, _, _, _, _, hEq, .inr ⟨rfl, rfl⟩, id, by rintro ⟨⟩⟩
  | stopDns =>
    simp only [hUi, Option.some.injEq, espWifiSetMode_eq] at h
    exact ⟨_, _, _, _, _, _, _, _, _, _, h.symm, .inl rfl, by rintro ⟨⟩, id⟩
  | finishHttp =>
    obtain ⟨-, rfl⟩ : s.HttpDone ∧ { { s with httpd := false }.takeDnsSock with ui := .finishDns } = s' := by
      simpa [hUi] using h
    obtain ⟨_, _, hEq⟩ := hTaken .finishDns
    exact ⟨_, _, _, _, _, _, _, _, _, _, hEq, .inr ⟨rfl, rfl⟩, id, by rintro ⟨⟩⟩
  | finishDns =>
    simp only [hUi, Option.some.injEq] at h
    exact ⟨_, _, _, _, _, _, _, _, _, _, h.symm, .inr ⟨rfl, rfl⟩, by rintro ⟨⟩, id⟩
  | failDns =>
    simp only [hUi, Option.some.injEq] at h
    exact ⟨_, _, _, _, _, _, _, _, _, _, h.symm, .inr ⟨rfl, rfl⟩, id, id⟩
  | failHttp =>
    obtain ⟨-, hEq⟩ : s.HttpDone ∧ ({ s with httpd := false, handlers := false, ui := .idle }.espWifiSetMode
        s.previousMode luck.restoreMode) = s' := by
      simpa [hUi] using h
    rw [espWifiSetMode_eq] at hEq
    exact ⟨_, _, _, _, _, _, _, _, _, _, hEq.symm, .inr ⟨rfl, rfl⟩, id, by rintro ⟨⟩⟩

/-! ## Events -/

theorem saveCredentials_eq (s : Station) (luck : Luck) (c : Credentials) :
    ∃ ssid password ok, s.saveCredentials luck c =
      ({ s with nvsSsid := ssid, nvsPassword := password }, ok) := by
  unfold saveCredentials
  split
  · exact ⟨s.nvsSsid, s.nvsPassword, false, rfl⟩
  · split
    · exact ⟨some c.ssid, s.nvsPassword, false, rfl⟩
    · exact ⟨some c.ssid, some c.password, luck.nvsCommit, rfl⟩

theorem dlna_disconnected (s : Station) (luck : Luck) (a : Attempt) :
    s.dlnaEventHandler luck (.disconnected a) =
      { s with
        connectedBit := false
        retryArmed := if s.running then s.retryArmed else luck.timerStart } := by
  unfold dlnaEventHandler
  cases hRunning : s.running
  · rfl
  · simp

theorem dlnaEventHandler_eq (s : Station) (luck : Luck) (e : StaEvent) :
    ∃ link bit armed, s.dlnaEventHandler luck e =
      { s with link := link, connectedBit := bit, retryArmed := armed } := by
  cases e with
  | started =>
    obtain ⟨link, hEq, -⟩ := s.espWifiConnect_eq luck
    exact ⟨link, s.connectedBit, s.retryArmed, hEq⟩
  | disconnected a => exact ⟨s.link, false, _, s.dlna_disconnected luck a⟩
  | gotIp a => exact ⟨s.link, true, s.retryArmed, rfl⟩

theorem provisionHandlers_eq (s : Station) (luck : Luck) (e : StaEvent) :
    ∃ status expected ssid password, s.provisionHandlers luck e =
      { s with
        status := status
        expected := expected
        nvsSsid := ssid
        nvsPassword := password } := by
  have hSame : s = { s with
      status := s.status
      expected := s.expected
      nvsSsid := s.nvsSsid
      nvsPassword := s.nvsPassword } := rfl
  unfold provisionHandlers
  split
  · cases e with
    | started => exact ⟨_, _, _, _, hSame⟩
    | disconnected a =>
      simp only [provisionLost]
      split
      · split
        · exact ⟨s.status, false, s.nvsSsid, s.nvsPassword, rfl⟩
        · exact ⟨.failed, s.expected, s.nvsSsid, s.nvsPassword, rfl⟩
      · exact ⟨_, _, _, _, hSame⟩
    | gotIp a =>
      simp only [provisionGotIp]
      split
      · obtain ⟨ssid, password, ok, hEq⟩ := s.saveCredentials_eq luck s.target
        refine ⟨if ok then .success else .failed, s.expected, ssid, password, ?_⟩
        rw [save, hEq]
      · exact ⟨_, _, _, _, hSame⟩
  · exact ⟨_, _, _, _, hSame⟩

/-- The handlers of an event leave the servers and the tasks alone. -/
theorem deliver_eq (h : s.deliver luck = some s') :
    ∃ events link bit armed status expected ssid password, s' =
      { s with
        events := events
        link := link
        connectedBit := bit
        retryArmed := armed
        status := status
        expected := expected
        nvsSsid := ssid
        nvsPassword := password } := by
  unfold deliver at h
  split at h
  · contradiction
  · rename_i e es hEvents
    obtain ⟨link, bit, armed, hDlna⟩ := dlnaEventHandler_eq { s with events := es } luck e
    obtain ⟨status, expected, ssid, password, hEq⟩ :=
      provisionHandlers_eq ({ s with events := es }.dlnaEventHandler luck e) luck e
    obtain rfl := Option.some.inj h
    rw [hEq, hDlna]
    exact ⟨es, link, bit, armed, status, expected, ssid, password, rfl⟩

/-! ## The other tasks -/

theorem httpHandleScan_eq (s : Station) (luck : Luck) :
    ∃ link events, s.httpHandleScan luck =
        { s with link := link, events := events, http := .scanning (s.status ≠ .connecting) } ∧
      (link = s.link ∧ events = s.events ∧ (luck.disconnect = false ∨ s.link = .idle) ∨
        ∃ a, s.link.attempt = some a ∧ link = .idle ∧ events = s.events ++ [.disconnected a]) := by
  unfold httpHandleScan
  rcases s.espWifiDisconnect_cases luck with ⟨hEq, hWhy⟩ | ⟨a, ha, hEq⟩
  · exact ⟨s.link, s.events, by rw [hEq], .inl ⟨rfl, rfl, hWhy⟩⟩
  · exact ⟨.idle, s.events ++ [.disconnected a], by rw [hEq], .inr ⟨a, ha, rfl, rfl⟩⟩

theorem httpTurn_eq (h : s.httpTurn luck = some s') :
    ∃ restore link, s.http = .scanning restore ∧ s' = { s with link := link, http := .idle } ∧
      (link = s.link ∨ s.running = false ∧ s.link = .idle ∧ link = .joining s.config) := by
  unfold httpTurn at h
  split at h
  · rename_i restore hScan
    split at h
    · rename_i hRestore
      obtain ⟨link, hEq, hLink⟩ := s.espWifiConnect_eq luck
      rw [hEq] at h
      exact ⟨restore, link, hScan, (Option.some.inj h).symm, hLink.imp_right fun hIdle => ⟨hRestore.2, hIdle⟩⟩
    · exact ⟨restore, s.link, hScan, (Option.some.inj h).symm, .inl rfl⟩
  · contradiction
  · contradiction

theorem wlanScanStart_eq (s : Station) (luck : Luck) :
    ∃ link events was, s.wlanScanStart luck =
        { s with link := link, events := events, scan := .scanning was } ∧
      (link = s.link ∧ events = s.events ∨
        ∃ a, s.link = .joining a ∧ link = .idle ∧ events = s.events ++ [.disconnected a]) := by
  unfold wlanScanStart
  split
  · exact ⟨s.link, s.events, true, rfl, .inl ⟨rfl, rfl⟩⟩
  · rename_i hAp
    rcases s.espWifiDisconnect_cases luck with ⟨hEq, -⟩ | ⟨a, ha, hEq⟩
    · exact ⟨s.link, s.events, false, by rw [hEq], .inl ⟨rfl, rfl⟩⟩
    · refine ⟨.idle, s.events ++ [.disconnected a], false, by rw [hEq], .inr ⟨a, ?_, rfl, rfl⟩⟩
      cases hLink : s.link <;> simp_all [Link.ap, Link.attempt]

theorem wlanScanTurn_eq (h : s.wlanScanTurn luck = some s') :
    ∃ link, s' = { s with link := link, scan := .idle } ∧ s.scan ≠ .idle ∧ s.JoinsBy s.config link := by
  unfold wlanScanTurn at h
  split at h
  · rename_i hScan
    exact ⟨s.link, (Option.some.inj h).symm, by simp [hScan], .inl rfl⟩
  · rename_i hScan
    obtain ⟨link, hEq, hLink⟩ := s.espWifiConnect_eq luck
    rw [hEq] at h
    exact ⟨link, (Option.some.inj h).symm, by simp [hScan], hLink⟩
  · contradiction

theorem timer_eq (h : s.step (.timer luck) = some s') :
    s.retryArmed = true ∧ ∃ link, s' = { s with retryArmed := false, link := link } ∧
      (link = s.link ∨ s.running = false ∧ s.link = .idle ∧ link = .joining s.config) := by
  simp only [step] at h
  split at h
  · rename_i hArmed
    refine ⟨hArmed, ?_⟩
    unfold wifiRetryCb at h
    split at h
    · exact ⟨s.link, (Option.some.inj h).symm, .inl rfl⟩
    · rename_i hRetry
      obtain ⟨link, hEq, hLink⟩ := espWifiConnect_eq { s with retryArmed := false } luck
      rw [hEq] at h
      refine ⟨link, (Option.some.inj h).symm, hLink.imp_right fun hIdle => ⟨?_, hIdle⟩⟩
      simpa using (not_or.1 hRetry).1
  · contradiction

theorem joined_eq (h : s.joined = some s') : ∃ a, s.link = .joining a ∧ s' = { s with link := .associated a } := by
  unfold joined at h
  split at h
  · rename_i a hLink
    exact ⟨a, hLink, (Option.some.inj h).symm⟩
  all_goals contradiction

theorem addressed_eq (h : s.addressed = some s') :
    ∃ a, s.link.ap = some a ∧ s' = { s with link := .online a, events := s.events ++ [.gotIp a] } := by
  unfold addressed at h
  split at h
  · rename_i a hAp
    exact ⟨a, hAp, (Option.some.inj h).symm⟩
  · contradiction

theorem lost_eq (h : s.lost = some s') :
    ∃ a, s.link.attempt = some a ∧
      s' = { s with link := .idle, events := s.events ++ [.disconnected a] } := by
  unfold lost at h
  split at h
  · contradiction
  · rename_i hLink
    cases hAttempt : s.link.attempt with
    | none => exact absurd (attempt_eq_none.1 hAttempt) hLink
    | some a => exact ⟨a, rfl, (Option.some.inj h).symm.trans (leave_of_attempt hAttempt)⟩

/-! ## The calls that are possible -/

theorem step_start (h : s.step (.start luck) = some s') :
    s.ui = .idle ∧ s' = (s.wifiProvisionStart luck).1 := by
  obtain ⟨hUi, hEq⟩ := Option.ite_none_right_eq_some.1 h
  exact ⟨hUi, (Option.some.inj hEq).symm⟩

theorem step_stop (h : s.step .stop = some s') : s.ui = .idle ∧ s' = s.wifiProvisionStop := by
  obtain ⟨hUi, hEq⟩ := Option.ite_none_right_eq_some.1 h
  exact ⟨hUi, (Option.some.inj hEq).symm⟩

theorem step_connect {ssid password : Bytes} (h : s.step (.connect ssid password luck) = some s') :
    s.ui = .idle ∧ s' = s.wifiProvisionConnect luck ssid password := by
  obtain ⟨hUi, hEq⟩ := Option.ite_none_right_eq_some.1 h
  exact ⟨hUi, (Option.some.inj hEq).symm⟩

theorem step_httpScan (h : s.step (.httpScan luck) = some s') :
    (s.httpd = true ∧ s.http = .idle) ∧ s' = s.httpHandleScan luck := by
  obtain ⟨hHttp, hEq⟩ := Option.ite_none_right_eq_some.1 h
  exact ⟨hHttp, (Option.some.inj hEq).symm⟩

theorem step_httpConnect {ssid password : Bytes} (h : s.step (.httpConnect ssid password luck) = some s') :
    (s.httpd = true ∧ s.http = .idle) ∧ s' = s.httpHandleConnect luck ssid password := by
  obtain ⟨hHttp, hEq⟩ := Option.ite_none_right_eq_some.1 h
  exact ⟨hHttp, (Option.some.inj hEq).symm⟩

theorem step_wlanScan (h : s.step (.wlanScan luck) = some s') :
    s.scan = .idle ∧ s' = s.wlanScanStart luck := by
  obtain ⟨hScan, hEq⟩ := Option.ite_none_right_eq_some.1 h
  exact ⟨hScan, (Option.some.inj hEq).symm⟩

theorem step_task (h : s.step (.task luck) = some s') :
    ∃ t, s.task = some t ∧ s.taskTurn luck t = some s' := Option.bind_eq_some_iff.1 h

theorem step_dns {n : Nat} (h : s.step (.dns n luck) = some s') :
    ∃ t, s.dns[n]? = some t ∧ s.dnsTurn luck n t = some s' := Option.bind_eq_some_iff.1 h

end EspMiplay.Wifi.Station
