import EspMiplay.Wifi.Proven

/-!
# Why a join fails

The status of a connect request goes to FAILED when the station is disconnected, unless one
disconnect is expected. The event does not say which join has ended, and the events of the
driver come late; and the scan of the screen disconnects a station that is not associated.

While a request is under way, what the driver knows and what its events report is
`Foreign` up to the join and `Own` from then on.

## Results

* `JoinInv.step`     — the invariant of the phases.
* `failure_along`    — a join fails by its own outcome along every run of `Undisturbed` steps.
* `old_network_lost` — the old network is lost before the connect task leaves it.
-/

namespace EspMiplay.Wifi

open Transition
open EspMiplay.Miplay (Bytes ascii)

/-- The scan tasks of the web server and of the screen. -/
def Action.isScan : Action → Bool
  | .httpScan _ | .http _ | .wlanScan _ | .wlan _ => true
  | _ => false

/-- A join or a network has been lost. -/
def StaEvent.isLoss : StaEvent → Bool
  | .disconnected _ => true
  | _ => false

namespace Station

variable (s : Station)

/-! ## What is wanted -/

/-- The driver refuses the join, with nobody in its way. -/
def Refused (luck : Luck) : Prop :=
  s.link = .idle ∧ (luck.setConfig = false ∨ luck.connect = false) ∧
    ∃ t ∈ s.task, ∃ waited, t.pc = .leaving true waited

/-- The join that was asked for has ended. -/
def Lost : Prop := ∃ b, s.events.head? = some (.disconnected b) ∧ b.request = some s.request

/-- The result has not come in time. -/
def TimedOut (luck : Luck) : Prop := luck.timeout = true ∧ ∃ t ∈ s.task, t.pc = .waiting

/-- The credentials cannot be saved. -/
def Unsaved : Prop := s.Saving ∧ ∃ b, s.events.head? = some (.gotIp b)

/-- The outcome of the join itself. -/
def OwnFailure : Action → Prop
  | .task luck => s.Refused luck ∨ s.TimedOut luck
  | .deliver _ => s.Lost ∨ s.Unsaved
  | _ => False

structure FailsByItself (s : Station) (a : Action) (s' : Station) : Prop where
  failed : s'.status = .failed → s.status = .connecting ∨ s'.request ≠ s.request → s.OwnFailure a
  undisturbed : a.isScan = true → s.status = .connecting →
    (∃ b ∈ s.link.attempt, b.request = some s.request) → s'.link = s.link

/-- The connect task starts the join on an idle station whose events have all been handled. -/
def ReadyToJoin : TaskPc → Prop
  | .leaving ok _ => ok = true ∧ s.link = .idle ∧ ∀ e ∈ s.events, e.isLoss = false
  | _ => True

/-- A disconnect is handled when it is expected, or when the join has been started. -/
def DisconnectInTime : Prop :=
  s.handlers = true → s.running = true → s.status = .connecting →
    s.expected = true ∨ ∃ t ∈ s.task, t.pc = .waiting

/-- The task of a request can be created, the old network is left in good time, and the
screen does not scan while the join is under way. -/
def Undisturbed : Action → Prop
  | .connect _ _ luck | .httpConnect _ _ luck => luck.taskCreate = true
  | .task _ => ∀ t ∈ s.task, s.ReadyToJoin t.pc
  | .deliver _ => ∀ b, s.events.head? = some (.disconnected b) → s.DisconnectInTime
  | .wlanScan _ => s.status = .connecting → ∀ b, s.link = .joining b → b.request ≠ some s.request
  | _ => True

/-! ## The phases of a request -/

/-- Before the join: the driver knows nothing of the request. -/
structure Foreign : Prop where
  config : s.config.request ≠ some s.request
  link : ∀ b ∈ s.link.attempt, b.request ≠ some s.request

/-- After the join: the driver and its events know nothing else. -/
structure Own : Prop where
  config : s.config.request = some s.request
  link : ∀ b ∈ s.link.attempt, b.request = some s.request
  events : ∀ b, .disconnected b ∈ s.events → b.request = some s.request
  expected : s.expected = false

def Phase : TaskPc → Prop
  | .greeting | .dnsDown | .httpDown => s.Foreign
  | .leaving _ _ => s.Foreign ∧ s.httpd = false
  | .waiting => s.Own ∧ s.httpd = false
  | .finishHttp | .finishDns => False

/-- No attempt is of a later request, and the connect task is of the latest. -/
structure Numbered : Prop where
  config : ∀ r ∈ s.config.request, r ≤ s.request
  link : ∀ b ∈ s.link.attempt, ∀ r ∈ b.request, r ≤ s.request
  task : ∀ t ∈ s.task, t.request = s.request

structure JoinInv : Prop where
  numbered : s.Numbered
  phase : s.status = .connecting → ∃ t, s.task = some t ∧ s.Phase t.pc

/-! ## Numbers -/

variable {s} {s' : Station} {luck : Luck}

theorem Carries.numbered (h : Carries s s') (hOld : s.Numbered) : s'.Numbered := by
  have hConfig : ∀ r ∈ s'.config.request, r ≤ s'.request := by
    rw [h.request]
    rcases h.config with hSame | hNone | ⟨t, ht, -, hOwn⟩
    · rw [hSame]
      exact hOld.config
    · rw [hNone]
      rintro r ⟨⟩
    · rw [hOwn]
      rintro r ⟨⟩
      exact (hOld.task t ht).le
  refine ⟨hConfig, fun b hb => ?_, fun t ht => ?_⟩
  · rcases h.link b hb with rfl | hWas
    · exact hConfig
    · rw [h.request]
      exact hOld.link b hWas
  · obtain ⟨u, hu, hRequest, -⟩ := h.task t ht
    rw [h.request, hRequest]
    exact hOld.task u hu

theorem Asks.numbered {password : Bytes} (h : Asks s password s') (hOld : s.Numbered) :
    s'.Numbered where
  config r hr := by
    rw [h.config] at hr
    rw [h.request]
    exact (hOld.config r hr).trans (Nat.le_succ _)
  link b hb r hr := by
    rw [h.link] at hb
    rw [h.request]
    exact (hOld.link b hb r hr).trans (Nat.le_succ _)
  task t ht := (h.task t ht).1

/-- A new request meets only attempts for earlier ones. -/
theorem Asks.foreign {password : Bytes} (h : Asks s password s') (hOld : s.Numbered) :
    s'.Foreign where
  config hNow := by
    rw [h.config, h.request] at hNow
    exact absurd (hOld.config _ hNow) (Nat.not_succ_le_self _)
  link b hb hNow := by
    rw [h.link] at hb
    rw [h.request] at hNow
    exact absurd (hOld.link b hb _ hNow) (Nat.not_succ_le_self _)

theorem Numbered.step (h : s.Numbered) {a : Action} (hStep : s.step a = some s') : s'.Numbered := by
  rcases step_cases hStep with hCarries | ⟨_, _, _, -, hAsks⟩ | ⟨luck, _, es, -, -, -, rfl⟩
  · exact hCarries.numbered h
  · exact hAsks.numbered h
  · obtain ⟨_, _, _, hEq⟩ := saveCredentials_eq { s with events := es, connectedBit := true } luck s.target
    have hSave : ({ s with events := es, connectedBit := true }.save luck).config = s.config ∧
        ({ s with events := es, connectedBit := true }.save luck).link = s.link ∧
        ({ s with events := es, connectedBit := true }.save luck).task = s.task ∧
        ({ s with events := es, connectedBit := true }.save luck).request = s.request := by
      unfold save
      rw [hEq]
      exact ⟨rfl, rfl, rfl, rfl⟩
    obtain ⟨hConfig, hLink, hTask, hRequest⟩ := hSave
    refine ⟨?_, ?_, ?_⟩
    · rw [hConfig, hRequest]
      exact h.config
    · rw [hLink, hRequest]
      exact h.link
    · rw [hTask, hRequest]
      exact h.task

/-! ## Phases -/

/-- A step that does not move the connect task, nor what the driver is to join with. -/
structure Stays (s s' : Station) : Prop where
  status : s'.status = .connecting → s.status = .connecting
  request : s'.request = s.request
  task : s'.task = s.task
  config : s'.config = s.config
  httpd : s'.httpd = true → s.httpd = true
  expected : s'.expected = true → s.expected = true
  link : ∀ b ∈ s'.link.attempt, b = s.config ∨ b ∈ s.link.attempt
  events : ∀ b, .disconnected b ∈ s'.events → .disconnected b ∈ s.events ∨ b ∈ s.link.attempt

/-- A step that at most ends the session. -/
structure Rests (s s' : Station) : Prop extends Stays s s' where
  kept : s'.status = s.status ∨ s'.status = .idle

theorem Rests.of_link (hStatus : s'.status = s.status) (hRequest : s'.request = s.request)
    (hTask : s'.task = s.task) (hConfig : s'.config = s.config) (hHttpd : s'.httpd = true → s.httpd = true)
    (hExpected : s'.expected = true → s.expected = true)
    (hLink : ∀ b ∈ s'.link.attempt, b = s.config ∨ b ∈ s.link.attempt)
    (hEvents : ∀ b, .disconnected b ∈ s'.events → .disconnected b ∈ s.events ∨ b ∈ s.link.attempt) :
    Rests s s' :=
  ⟨⟨fun hIs => hStatus ▸ hIs, hRequest, hTask, hConfig, hHttpd, hExpected, hLink, hEvents⟩, .inl hStatus⟩

/-- Only the driver moves. -/
theorem Rests.of_driver {link : Link} {events : List StaEvent}
    (hLink : ∀ b ∈ link.attempt, b = s.config ∨ b ∈ s.link.attempt)
    (hEvents : ∀ b, .disconnected b ∈ events → .disconnected b ∈ s.events ∨ b ∈ s.link.attempt) :
    Rests s { s with link := link, events := events } :=
  .of_link rfl rfl rfl rfl id id hLink hEvents

theorem Foreign.stays (h : s.Foreign) (hStays : Stays s s') : s'.Foreign where
  config := by
    rw [hStays.config, hStays.request]
    exact h.config
  link b hb := by
    rw [hStays.request]
    rcases hStays.link b hb with rfl | hWas
    · exact h.config
    · exact h.link b hWas

theorem Own.stays (h : s.Own) (hStays : Stays s s') : s'.Own where
  config := by
    rw [hStays.config, hStays.request]
    exact h.config
  link b hb := by
    rw [hStays.request]
    rcases hStays.link b hb with rfl | hWas
    · exact h.config
    · exact h.link b hWas
  events b hb := by
    rw [hStays.request]
    exact (hStays.events b hb).elim (h.events b) (h.link b)
  expected := Bool.eq_false_iff.2 fun hIs => absurd (hStays.expected hIs) (by simp [h.expected])

theorem Phase.stays {pc : TaskPc} (h : s.Phase pc) (hStays : Stays s s') : s'.Phase pc := by
  have hHttpd (hOff : s.httpd = false) : s'.httpd = false :=
    Bool.eq_false_iff.2 fun hOn => absurd (hStays.httpd hOn) (by simp [hOff])
  cases pc with
  | greeting | dnsDown | httpDown => exact Foreign.stays h hStays
  | leaving ok waited => exact ⟨h.1.stays hStays, hHttpd h.2⟩
  | waiting => exact ⟨h.1.stays hStays, hHttpd h.2⟩
  | finishHttp | finishDns => exact h

/-- The phase is the same while the task stays. -/
theorem JoinInv.stays (h : JoinInv s) (hStays : Stays s s') (hIs : s'.status = .connecting) :
    ∃ t, s'.task = some t ∧ s'.Phase t.pc := by
  obtain ⟨t, hTask, hPhase⟩ := h.phase (hStays.status hIs)
  exact ⟨t, hStays.task.trans hTask, hPhase.stays hStays⟩

theorem rests_refl (s : Station) : Rests s s :=
  .of_driver (fun _ hb => .inr hb) fun _ hb => .inl hb

theorem rests_ui (h : s.uiTurn luck = some s') : Rests s s' := by
  obtain ⟨status, _, _, _, _, _, _, _, _, _, rfl, hStatus, hExpected, hHttpd⟩ := uiTurn_eq h
  have hKept : status = s.status ∨ status = .idle := hStatus.symm.imp_left And.left
  refine ⟨⟨fun hIs => ?_, rfl, rfl, rfl, hHttpd, hExpected, fun _ hb => .inr hb, fun _ hb => .inl hb⟩, hKept⟩
  rcases hKept with rfl | rfl
  · exact hIs
  · contradiction

/-- A call that begins a session begins it without a request. -/
theorem rests_start (s : Station) (luck : Luck) :
    Rests s (s.wifiProvisionStart luck).1 ∨ (s.wifiProvisionStart luck).1.status = .idle := by
  rcases s.wifiProvisionStart_cases luck with ⟨-, hEq⟩ | ⟨-, ⟨_, _, hEq⟩ | hEq⟩
  · rw [hEq]
    exact .inl s.rests_refl
  · rw [hEq]
    exact .inl (.of_link rfl rfl rfl rfl id id (fun _ hb => .inr hb) fun _ hb => .inl hb)
  · rw [hEq]
    rcases openPortal_cases { s with previousMode := s.mode }.newPortal luck with
      ⟨_, _, _, hOpen, -⟩ | ⟨httpd, hOpen⟩
    · rw [hOpen]
      exact .inr rfl
    · obtain ⟨_, _, hTake⟩ :=
        takeDnsSock_eq { { s with previousMode := s.mode }.newPortal with httpd := httpd, running := false }
      rw [hOpen, failPortal, hTake]
      exact .inr rfl

/-- The handlers of an event do not move the connect task. -/
theorem stays_deliver (h : s.deliver luck = some s') : Stays s s' := by
  have hLink : ∀ b ∈ s.link.attempt, b = s.config ∨ b ∈ s.link.attempt := fun _ hb => .inr hb
  obtain ⟨e, es, hEvents, hCases⟩ := deliver_handled h
  have hRest : ∀ b, .disconnected b ∈ es → .disconnected b ∈ s.events ∨ b ∈ s.link.attempt :=
    fun b hb => .inl (hEvents ▸ List.mem_cons_of_mem e hb)
  rcases hCases with ⟨link, rfl, hJoins⟩ | ⟨armed, status, expected, rfl, hStatus, hExpected⟩ |
    ⟨a, rfl, hEq⟩
  · exact ⟨id, rfl, rfl, rfl, id, id, hJoins.attempt, hRest⟩
  · rcases hStatus with rfl | rfl
    · exact ⟨id, rfl, rfl, rfl, id, hExpected, hLink, hRest⟩
    · exact ⟨by rintro ⟨⟩, rfl, rfl, rfl, id, hExpected, hLink, hRest⟩
  · split_ifs at hEq
    · obtain ⟨ssid, password, ok, hSave⟩ :=
        saveCredentials_eq { s with events := es, connectedBit := true } luck s.target
      rw [hEq, save, hSave]
      refine ⟨fun hIs => ?_, rfl, rfl, rfl, id, id, hLink, hRest⟩
      cases ok <;> contradiction
    · rw [hEq]
      exact ⟨id, rfl, rfl, rfl, id, id, hLink, hRest⟩

/-- The task tears the old network down and joins the new one. -/
theorem phase_task {t : ConnectTask} (hPhase : s.Phase t.pc) (hRequest : t.request = s.request)
    (hReady : s.ReadyToJoin t.pc) (hTurn : s.taskTurn luck t = some s')
    (hIs : s'.status = .connecting) (hWas : s.status = .connecting) :
    ∃ u, s'.task = some u ∧ s'.Phase u.pc := by
  unfold taskTurn at hTurn
  cases hPc : t.pc with
  | greeting =>
    rw [hPc] at hPhase
    obtain ⟨_, _, hTake⟩ := s.takeDnsSock_eq
    simp only [hPc, Option.some.injEq, hTake] at hTurn
    rw [← hTurn]
    exact ⟨_, rfl, hPhase.config, hPhase.link⟩
  | dnsDown =>
    rw [hPc] at hPhase
    simp only [hPc, Option.some.injEq] at hTurn
    rw [← hTurn]
    exact ⟨_, rfl, hPhase.config, hPhase.link⟩
  | httpDown =>
    rw [hPc] at hPhase
    obtain ⟨-, rfl⟩ : s.HttpDone ∧ s.tearDown luck t = s' := by simpa [hPc] using hTurn
    obtain ⟨_, link, _, _, _, hEq, hWhy⟩ := s.tearDown_eq luck t
    rw [hEq]
    refine ⟨_, rfl, ⟨hPhase.config, ?_⟩, rfl⟩
    rcases hWhy with ⟨rfl, -⟩ | ⟨_, -, rfl, -⟩
    · exact hPhase.link
    · rintro b ⟨⟩
  | leaving ok waited =>
    rw [hPc] at hPhase hReady
    obtain ⟨rfl, hIdle, hNone⟩ := hReady
    have hAp : ¬(waited = true ∧ s.link.ap.isSome) := by simp [hIdle, Link.ap]
    simp only [hPc] at hTurn
    rw [if_pos ⟨trivial, hAp⟩] at hTurn
    obtain rfl := Option.some.inj hTurn
    rcases join_cases { s with expected := false } luck t with
      ⟨link, -, -, hEq, hJoins⟩ | ⟨-, _, _, hEq⟩
    · -- from here on the driver knows only this request
      have hOwn : (some t.request : Option Nat) = some s.request := congrArg some hRequest
      rw [hEq]
      refine ⟨_, rfl, ⟨hOwn, fun b hb => ?_, fun b hb => absurd (hNone _ hb) (by simp [StaEvent.isLoss]), rfl⟩,
        hPhase.2⟩
      rcases hJoins with rfl | ⟨-, rfl⟩
      · simp [hIdle, Link.attempt] at hb
      · obtain rfl := Option.some.inj hb
        exact hOwn
    · rw [hEq] at hIs
      contradiction
  | waiting =>
    have hGo : ¬s.status ≠ .connecting := not_not.2 hWas
    simp only [hPc, if_neg hGo] at hTurn
    split at hTurn
    · obtain ⟨_, _, hEq⟩ := s.giveUp_eq luck t
      rw [hEq] at hTurn
      rw [← Option.some.inj hTurn] at hIs
      contradiction
    · contradiction
  | finishHttp | finishDns =>
    rw [hPc] at hPhase
    exact hPhase.elim

/-- The task fails because the driver refuses the join, or the result does not come. -/
theorem fails_task {t : ConnectTask} (hTask : s.task = some t) (hPhase : s.Phase t.pc)
    (hReady : s.ReadyToJoin t.pc) (hTurn : s.taskTurn luck t = some s')
    (hFailed : s'.status = .failed) (hWas : s.status = .connecting) :
    s.Refused luck ∨ s.TimedOut luck := by
  have hNot : s'.status ≠ s.status := by simp [hFailed, hWas]
  unfold taskTurn at hTurn
  cases hPc : t.pc with
  | greeting =>
    obtain ⟨_, _, hTake⟩ := s.takeDnsSock_eq
    simp only [hPc, Option.some.injEq, hTake] at hTurn
    rw [← hTurn] at hNot
    exact absurd rfl hNot
  | dnsDown =>
    simp only [hPc, Option.some.injEq] at hTurn
    rw [← hTurn] at hNot
    exact absurd rfl hNot
  | httpDown =>
    obtain ⟨-, rfl⟩ : s.HttpDone ∧ s.tearDown luck t = s' := by simpa [hPc] using hTurn
    obtain ⟨_, _, _, _, _, hEq, -⟩ := s.tearDown_eq luck t
    rw [hEq] at hNot
    exact absurd rfl hNot
  | leaving ok waited =>
    rw [hPc] at hReady
    obtain ⟨rfl, hIdle, -⟩ := hReady
    have hAp : ¬(waited = true ∧ s.link.ap.isSome) := by simp [hIdle, Link.ap]
    simp only [hPc] at hTurn
    rw [if_pos ⟨trivial, hAp⟩] at hTurn
    obtain rfl := Option.some.inj hTurn
    rcases join_cases { s with expected := false } luck t with ⟨_, -, -, hEq, -⟩ | ⟨hRefused, -⟩
    · rw [hEq] at hNot
      exact absurd rfl hNot
    · exact .inl ⟨hIdle, hRefused, t, hTask, waited, hPc⟩
  | waiting =>
    have hGo : ¬s.status ≠ .connecting := not_not.2 hWas
    simp only [hPc, if_neg hGo] at hTurn
    split at hTurn
    · rename_i hTimeout
      exact .inr ⟨hTimeout, t, hTask, hPc⟩
    · contradiction
  | finishHttp | finishDns =>
    rw [hPc] at hPhase
    exact hPhase.elim

/-- An event fails the request when its join has ended, or when the flash does not take the
credentials. -/
theorem fails_deliver (h : JoinInv s) (hOk : s.Undisturbed (.deliver luck))
    (hDeliver : s.deliver luck = some s') (hFailed : s'.status = .failed)
    (hWas : s.status = .connecting) : s.Lost ∨ s.Unsaved := by
  have hNot : s'.status ≠ s.status := by simp [hFailed, hWas]
  unfold deliver at hDeliver
  split at hDeliver
  · contradiction
  · rename_i e es hEvents
    have hHead : s.events.head? = some e := by rw [hEvents, List.head?_cons]
    obtain rfl := Option.some.inj hDeliver
    cases e with
    | started =>
      obtain ⟨_, hEq, -⟩ := espWifiConnect_eq { s with events := es } luck
      simp only [dlnaEventHandler, hEq, provisionHandlers, ite_self] at hNot
      exact absurd rfl hNot
    | disconnected b =>
      refine .inl ⟨b, hHead, ?_⟩
      rw [dlna_disconnected] at hNot
      simp only [provisionHandlers, provisionLost] at hNot
      split at hNot
      · rename_i hHandlers
        split at hNot
        · rename_i hRunning
          split at hNot
          · exact absurd rfl hNot
          · -- nobody expects it: the join has been started, and this is how it ends
            rename_i hUnexpected
            rcases hOk b hHead hHandlers hRunning.1 hWas with hExpected | ⟨t, hTask, hPc⟩
            · exact absurd hExpected hUnexpected
            · obtain ⟨u, hu, hPhase⟩ := h.phase hWas
              obtain rfl : t = u := Option.some.inj (Eq.trans (Eq.symm hTask) hu)
              rw [hPc] at hPhase
              exact hPhase.1.events b (List.mem_of_mem_head? hHead)
        · exact absurd rfl hNot
      · exact absurd rfl hNot
    | gotIp b =>
      have hDlna : { s with events := es }.dlnaEventHandler luck (.gotIp b) =
          { s with events := es, connectedBit := true } := rfl
      rw [hDlna, provision_gotIp] at hNot
      split at hNot
      · rename_i hSaving
        exact .inr ⟨hSaving, b, hHead⟩
      · exact absurd rfl hNot

/-- A request is refused, or its task begins with the greeting. -/
theorem begins_of_create (s : Station) (ssid password : Bytes) (hCreate : luck.taskCreate = true) :
    ∃ s', s.startStaConnect luck ssid password = (s', false) ∧
      (Rests s s' ∨ Asks s password s' ∧ s'.status = .connecting ∧ ∃ t, s'.task = some t ∧ t.pc = .greeting) := by
  rcases s.startStaConnect_cases luck ssid password with
    ⟨_, hEq⟩ | ⟨hTask, _, _, _, _, -, hEq | ⟨hNot, -⟩⟩
  · exact ⟨_, hEq, .inl (.of_link rfl rfl rfl rfl id id (fun _ hb => .inr hb) fun _ hb => .inl hb)⟩
  · refine ⟨_, hEq, .inr ⟨⟨hTask, rfl, rfl, by simp, rfl, rfl, rfl, ?_⟩, rfl, _, rfl, rfl⟩⟩
    rintro t ⟨⟩
    exact ⟨rfl, rfl⟩
  · rw [hCreate] at hNot
    contradiction

/-- All other actions than requests, turns of the connect task and events. -/
theorem rests_step {a : Action} (hStep : s.step a = some s') :
    Rests s s' ∨ s'.status = .idle ∨
      (∃ ssid password luck, a = .connect ssid password luck ∨ a = .httpConnect ssid password luck) ∨
      ∃ luck, a = .task luck ∨ a = .deliver luck := by
  have hLink : ∀ b ∈ s.link.attempt, b = s.config ∨ b ∈ s.link.attempt := fun _ hb => .inr hb
  have hEvents : ∀ b, .disconnected b ∈ s.events → .disconnected b ∈ s.events ∨ b ∈ s.link.attempt :=
    fun _ hb => .inl hb
  have hLeft {a : Attempt} (ha : s.link.attempt = some a) : ∀ b, .disconnected b ∈ s.events ++ [.disconnected a] →
      .disconnected b ∈ s.events ∨ b ∈ s.link.attempt := by
    intro b hb
    rcases List.mem_append.1 hb with hOld | hNew
    · exact .inl hOld
    · obtain rfl : b = a := by simpa using hNew
      exact .inr ha
  have hNone : ∀ b ∈ Link.idle.attempt, b = s.config ∨ b ∈ s.link.attempt := by
    rintro b ⟨⟩
  cases a with
  | start luck =>
    obtain ⟨-, rfl⟩ := step_start hStep
    exact (s.rests_start luck).imp_right .inl
  | stop =>
    obtain ⟨-, rfl⟩ := step_stop hStep
    unfold wifiProvisionStop
    split
    · exact .inl (.of_link rfl rfl rfl rfl id id hLink hEvents)
    · exact .inl s.rests_refl
  | connect ssid password luck => exact .inr (.inr (.inl ⟨ssid, password, luck, .inl rfl⟩))
  | httpConnect ssid password luck => exact .inr (.inr (.inl ⟨ssid, password, luck, .inr rfl⟩))
  | task luck => exact .inr (.inr (.inr ⟨luck, .inl rfl⟩))
  | deliver luck => exact .inr (.inr (.inr ⟨luck, .inr rfl⟩))
  | ui luck => exact .inl (rests_ui hStep)
  | httpScan luck =>
    obtain ⟨-, rfl⟩ := step_httpScan hStep
    obtain ⟨link, events, hEq, hWhy⟩ := s.httpHandleScan_eq luck
    rw [hEq]
    rcases hWhy with ⟨rfl, rfl, -⟩ | ⟨a, ha, rfl, rfl⟩
    · exact .inl (.of_link rfl rfl rfl rfl id id hLink hEvents)
    · exact .inl (.of_link rfl rfl rfl rfl id id hNone (hLeft ha))
  | http luck =>
    obtain ⟨_, link, -, rfl, hJoins⟩ := httpTurn_eq hStep
    have hJoins : s.JoinsBy s.config link := hJoins.imp_right fun hIdle => hIdle.2
    exact .inl (.of_link rfl rfl rfl rfl id id hJoins.attempt hEvents)
  | dns n luck =>
    obtain ⟨t, -, hTurn⟩ := step_dns hStep
    unfold dnsTurn at hTurn
    split at hTurn
    · split at hTurn
      · exact Option.some.inj hTurn ▸ .inl (.of_link rfl rfl rfl rfl id id hLink hEvents)
      · split at hTurn
        · exact Option.some.inj hTurn ▸ .inl (.of_link rfl rfl rfl rfl id id hLink hEvents)
        · exact Option.some.inj hTurn ▸ .inl (.of_link rfl rfl rfl rfl id id hLink hEvents)
    · split at hTurn
      · contradiction
      · exact Option.some.inj hTurn ▸ .inl (.of_link rfl rfl rfl rfl id id hLink hEvents)
  | wlanScan luck =>
    obtain ⟨-, rfl⟩ := step_wlanScan hStep
    obtain ⟨link, events, was, hEq, hWhy⟩ := s.wlanScanStart_eq luck
    rw [hEq]
    rcases hWhy with ⟨rfl, rfl⟩ | ⟨a, hIs, rfl, rfl⟩
    · exact .inl (.of_link rfl rfl rfl rfl id id hLink hEvents)
    · exact .inl (.of_link rfl rfl rfl rfl id id hNone (hLeft (by rw [hIs, Link.attempt])))
  | wlan luck =>
    obtain ⟨link, rfl, -, hJoins⟩ := wlanScanTurn_eq hStep
    exact .inl (.of_link rfl rfl rfl rfl id id hJoins.attempt hEvents)
  | joined =>
    obtain ⟨a, hIs, rfl⟩ := joined_eq hStep
    refine .inl (.of_link rfl rfl rfl rfl id id ?_ hEvents)
    rintro b ⟨⟩
    exact .inr (by simp [hIs, Link.attempt])
  | addressed =>
    obtain ⟨a, hIs, rfl⟩ := addressed_eq hStep
    refine .inl (.of_link rfl rfl rfl rfl id id ?_ fun b hb => .inl ?_)
    · rintro b ⟨⟩
      refine .inr ?_
      cases hLinkIs : s.link <;> simp_all [Link.ap, Link.attempt]
    · simpa using hb
  | lost =>
    obtain ⟨a, ha, rfl⟩ := lost_eq hStep
    exact .inl (.of_driver hNone (hLeft ha))
  | timer luck =>
    obtain ⟨-, link, rfl, hJoins⟩ := timer_eq hStep
    have hJoins : s.JoinsBy s.config link := hJoins.imp_right fun hIdle => hIdle.2
    exact .inl (.of_link rfl rfl rfl rfl id id hJoins.attempt hEvents)

/-- The request goes its own way, whatever the other tasks do. -/
theorem JoinInv.phase_step (h : JoinInv s) {a : Action} (hStep : s.step a = some s')
    (hOk : s.Undisturbed a) (hIs : s'.status = .connecting) : ∃ t, s'.task = some t ∧ s'.Phase t.pc := by
  have hBegins {ssid password : Bytes} {luck : Luck} (hCreate : luck.taskCreate = true) {r : Station}
      (hStart : s.startStaConnect luck ssid password = (r, false)) (hIs : r.status = .connecting) :
      ∃ t, r.task = some t ∧ r.Phase t.pc := by
    obtain ⟨r', hEq, hWhy⟩ := s.begins_of_create ssid password hCreate
    obtain rfl : r' = r := (Prod.mk.inj (hEq.symm.trans hStart)).1
    rcases hWhy with hRests | ⟨hAsks, -, t, hTask, hPc⟩
    · exact h.stays hRests.toStays hIs
    · refine ⟨t, hTask, ?_⟩
      rw [hPc]
      exact hAsks.foreign h.numbered
  rcases rests_step hStep with hRests | hIdle | ⟨ssid, password, luck, rfl | rfl⟩ | ⟨luck, rfl | rfl⟩
  · exact h.stays hRests.toStays hIs
  · rw [hIdle] at hIs
    contradiction
  · obtain ⟨-, rfl⟩ := step_connect hStep
    obtain ⟨r, hEq, -⟩ := s.begins_of_create ssid password hOk
    simp only [wifiProvisionConnect, hEq] at hIs ⊢
    exact hBegins hOk hEq hIs
  · obtain ⟨-, rfl⟩ := step_httpConnect hStep
    obtain ⟨r, hEq, -⟩ := s.begins_of_create ssid password hOk
    simp only [httpHandleConnect, hEq] at hIs ⊢
    exact hBegins hOk hEq hIs
  · obtain ⟨t, hTask, hTurn⟩ := step_task hStep
    have hWas := ((carries_task hTask hTurn).connecting hIs).1
    obtain ⟨u, hu, hPhase⟩ := h.phase hWas
    obtain rfl : t = u := Option.some.inj (Eq.trans (Eq.symm hTask) hu)
    exact phase_task hPhase (h.numbered.task t hTask) (hOk t hTask) hTurn hIs hWas
  · exact h.stays (stays_deliver hStep) hIs

theorem JoinInv.failed_step (h : JoinInv s) {a : Action} (hStep : s.step a = some s')
    (hOk : s.Undisturbed a) (hFailed : s'.status = .failed)
    (hWhen : s.status = .connecting ∨ s'.request ≠ s.request) : s.OwnFailure a := by
  have hRest (hRests : Rests s s') : s.OwnFailure a := by
    rcases hRests.kept with hSame | hIdle
    · rcases hWhen with hWas | hNew
      · rw [hFailed, hWas] at hSame
        contradiction
      · exact absurd hRests.request hNew
    · rw [hFailed] at hIdle
      contradiction
  rcases rests_step hStep with hRests | hIdle | ⟨ssid, password, luck, rfl | rfl⟩ | ⟨luck, rfl | rfl⟩
  · exact hRest hRests
  · rw [hFailed] at hIdle
    contradiction
  · obtain ⟨-, rfl⟩ := step_connect hStep
    obtain ⟨r, hEq, hWhy⟩ := s.begins_of_create ssid password hOk
    simp only [wifiProvisionConnect, hEq] at hRest hFailed
    rcases hWhy with hRests | ⟨-, hConnecting, -⟩
    · exact hRest hRests
    · rw [hConnecting] at hFailed
      contradiction
  · obtain ⟨-, rfl⟩ := step_httpConnect hStep
    obtain ⟨r, hEq, hWhy⟩ := s.begins_of_create ssid password hOk
    simp only [httpHandleConnect, hEq] at hRest hFailed
    rcases hWhy with hRests | ⟨-, hConnecting, -⟩
    · exact hRest hRests
    · rw [hConnecting] at hFailed
      contradiction
  · obtain ⟨t, hTask, hTurn⟩ := step_task hStep
    have hWas := hWhen.resolve_right (not_not.2 (carries_task hTask hTurn).request)
    obtain ⟨u, hu, hPhase⟩ := h.phase hWas
    obtain rfl : t = u := Option.some.inj (Eq.trans (Eq.symm hTask) hu)
    exact fails_task hTask hPhase (hOk t hTask) hTurn hFailed hWas
  · have hWas := hWhen.resolve_right (not_not.2 (stays_deliver hStep).request)
    exact fails_deliver h hOk hStep hFailed hWas

/-- A scan does not touch the join of the request. -/
theorem JoinInv.scan_step (h : JoinInv s) {a : Action} (hStep : s.step a = some s')
    (hOk : s.Undisturbed a) (hScan : a.isScan = true) (hIs : s.status = .connecting)
    (hJoin : ∃ b ∈ s.link.attempt, b.request = some s.request) : s'.link = s.link := by
  obtain ⟨b, hb, hOwn⟩ := hJoin
  have hBusy : s.link ≠ .idle := by
    intro hIdle
    rw [hIdle] at hb
    contradiction
  have hHttpd : s.httpd = false := by
    obtain ⟨t, -, hPhase⟩ := h.phase hIs
    cases hPc : t.pc <;> rw [hPc] at hPhase
    case greeting | dnsDown | httpDown => exact absurd hOwn (hPhase.link b hb)
    case leaving => exact hPhase.2
    case waiting => exact hPhase.2
    all_goals exact hPhase.elim
  cases a with
  | httpScan luck =>
    obtain ⟨⟨hOn, -⟩, -⟩ := step_httpScan hStep
    rw [hHttpd] at hOn
    contradiction
  | http luck =>
    obtain ⟨_, link, -, rfl, hJoins⟩ := httpTurn_eq hStep
    exact hJoins.resolve_right fun hIdle => hBusy hIdle.2.1
  | wlanScan luck =>
    obtain ⟨-, rfl⟩ := step_wlanScan hStep
    obtain ⟨link, events, was, hEq, hWhy⟩ := s.wlanScanStart_eq luck
    rw [hEq]
    rcases hWhy with ⟨rfl, -⟩ | ⟨a, hJoining, -, -⟩
    · rfl
    · rw [hJoining] at hb
      obtain rfl : a = b := Option.some.inj hb
      exact absurd hOwn (hOk hIs a hJoining)
  | wlan luck =>
    obtain ⟨link, rfl, -, hJoins⟩ := wlanScanTurn_eq hStep
    exact hJoins.resolve_right fun hIdle => hBusy hIdle.1
  | _ => contradiction

theorem JoinInv.step (h : JoinInv s) {a : Action} (hStep : s.step a = some s')
    (hOk : s.Undisturbed a) : JoinInv s' ∧ s.FailsByItself a s' :=
  ⟨⟨h.numbered.step hStep, h.phase_step hStep hOk⟩,
    ⟨h.failed_step hStep hOk, h.scan_step hStep hOk⟩⟩

theorem joinInv_boot (config : Credentials) (nvsSsid nvsPassword : Option Bytes) :
    JoinInv (boot config nvsSsid nvsPassword) where
  numbered := ⟨by rintro _ ⟨⟩, by rintro _ ⟨⟩, by rintro _ ⟨⟩⟩
  phase := by rintro ⟨⟩

/-- **Every run.** A join fails by its own outcome, as long as nobody disturbs it. -/
theorem failure_along (config : Credentials) (nvsSsid nvsPassword : Option Bytes)
    (as : List Action)
    (h : Along step (fun s a _ => s.Undisturbed a) (boot config nvsSsid nvsPassword) as) :
    Along step (fun s a s' => s.FailsByItself a s') (boot config nvsSsid nvsPassword) as :=
  Along.of_invariant (fun _ _ _ hInv hStep hOk => hInv.step hStep hOk)
    (joinInv_boot config nvsSsid nvsPassword) h

/-! ## The old network is lost -/

instance : Decidable s.DisconnectInTime :=
  inferInstanceAs (Decidable (s.handlers = true → s.running = true → s.status = .connecting →
    s.expected = true ∨ ∃ t ∈ s.task, t.pc = .waiting))

instance : ∀ pc, Decidable (s.ReadyToJoin pc)
  | .leaving ok _ =>
    inferInstanceAs (Decidable (ok = true ∧ s.link = .idle ∧ ∀ e ∈ s.events, e.isLoss = false))
  | .greeting | .dnsDown | .httpDown | .waiting | .finishHttp | .finishDns => .isTrue trivial

/-- Checked for the event that is next. -/
instance (s : Station) : ∀ a, Decidable (s.Undisturbed a)
  | .connect _ _ luck | .httpConnect _ _ luck => inferInstanceAs (Decidable (luck.taskCreate = true))
  | .task _ => inferInstanceAs (Decidable (∀ t ∈ s.task, s.ReadyToJoin t.pc))
  | .deliver _ =>
    match h : s.events.head? with
    | some (.disconnected _) =>
      decidable_of_iff s.DisconnectInTime
        ⟨fun hAll _ _ => hAll, fun hAll => hAll _ h⟩
    | some .started => .isTrue fun b hb => by cases h.symm.trans hb
    | some (.gotIp _) => .isTrue fun b hb => by cases h.symm.trans hb
    | none => .isTrue fun b hb => by cases h.symm.trans hb
  | .wlanScan _ =>
    match h : s.link with
    | .joining b =>
      decidable_of_iff (s.status = .connecting → b.request ≠ some s.request)
        ⟨fun hAll hIs c hc => by cases h.symm.trans hc; exact hAll hIs, fun hAll hIs => hAll hIs b h⟩
    | .idle => .isTrue fun _ b hb => by cases h.symm.trans hb
    | .associated _ => .isTrue fun _ b hb => by cases h.symm.trans hb
    | .online _ => .isTrue fun _ b hb => by cases h.symm.trans hb
  | .start _ | .stop | .ui _ | .httpScan _ | .http _ | .dns _ _ | .wlan _
  | .joined | .addressed | .lost | .timer _ => .isTrue trivial

theorem failure_along_of_cafe :
    Along step (fun s a s' => s.FailsByItself a s') bootedAtHome (goOnline ++ choose (ascii "cafe")) :=
  failure_along _ _ _ _ (by decide +kernel)

/-- The network the station is on is lost while the answer to the request is still on its
way to the phone. -/
theorem old_network_lost :
    ¬∀ (config : Credentials) (nvsSsid nvsPassword : Option Bytes) (as : List Action),
      Along step (fun s a s' => s.FailsByItself a s') (boot config nvsSsid nvsPassword) as := by
  intro hAll
  obtain ⟨s, s', hRun, hStep, hFails⟩ := exists_last_of_any
    (show (run step bootedAtHome
        (goOnline ++ [.connect (ascii "cafe") (ascii "password") allWell, .lost])).any
      (fun s => (s.step (.deliver allWell)).any fun s' =>
        decide (s.status = .connecting ∧ s'.status = .failed ∧
          s.events = [.disconnected ⟨⟨ascii "home", ascii "secret"⟩, none⟩])) = true by decide +kernel)
  obtain ⟨hWas, hFailed, hEvents⟩ := of_decide_eq_true hFails
  rcases ((hAll _ _ _ _).last hRun hStep).failed hFailed (.inl hWas) with ⟨b, hb, hOwn⟩ | ⟨-, b, hb⟩
  · rw [hEvents, List.head?_cons] at hb
    cases hb
    contradiction
  · rw [hEvents, List.head?_cons] at hb
    cases hb

end Station

end EspMiplay.Wifi
