import EspMiplay.Wifi.ProvisionSteps
import Mathlib.Data.List.TakeWhile

/-!
# What is saved is proven

Credentials are saved when the station gets an address while a connect request is under way
and the network it is joined to has the SSID of the request. Which password it has joined
with is not looked at, and the two keys are written one after the other.

The attempts of the driver carry the request they were configured for
(`Attempt.request`), so that an address can be told from one of an earlier join.

## Results

* `step_cases`          — a step carries the request on, begins another one, or saves.
* `RequestInv.step`     — what the driver joins with is what the request asked for.
* `proven_along`        — the law of the saved credentials along every run of `Sound` steps.
* `saved_unproven`      — the network the station is on, with another password.
-/

namespace EspMiplay.Wifi

open Transition
open EspMiplay.Miplay (Bytes ascii cstr strncpy)

/-- The keys are written both, or not at all. -/
def Luck.SavesWhole (luck : Luck) : Prop :=
  luck.nvsOpen = false ∨ luck.nvsSsid = false ∨ luck.nvsPassword = true ∧ luck.nvsCommit = true

instance (luck : Luck) : Decidable luck.SavesWhole := inferInstanceAs (Decidable (_ ∨ _ ∨ _))

namespace Station

variable (s : Station)

def stored : Option Bytes × Option Bytes := (s.nvsSsid, s.nvsPassword)

/-- An address would be taken for the success of the request. -/
def Saving : Prop :=
  s.handlers = true ∧ s.running = true ∧ s.status = .connecting ∧ s.OnTarget

instance : Decidable s.Saving := inferInstanceAs (Decidable (_ ∧ _ ∧ _ ∧ _))

/-- The station has joined for the latest request, and `a` is how. -/
def JoinedForRequest (a : Attempt) : Prop := s.link.ap = some a ∧ a.request = some s.request

instance (a : Attempt) : Decidable (s.JoinedForRequest a) := inferInstanceAs (Decidable (_ ∧ _))

/-- What is saved are the credentials that have brought an address since they were asked
for, and nothing is saved half. -/
structure Proven (s s' : Station) : Prop where
  proven : s'.stored ≠ s.stored ∨ s'.status = .success ∧ s.status ≠ .success →
    ∃ a, s.events.head? = some (.gotIp a) ∧ s.JoinedForRequest a ∧
      s'.stored = (some a.config.ssid, some a.config.password)
  kept : s'.status ≠ .success → s'.stored = s.stored

/-- A password fits the configuration of the driver; and an address that would be taken for
a success is the one of the join that was asked for, and the flash takes both keys. -/
def Sound : Action → Prop
  | .connect _ password _ | .httpConnect _ password _ => (cstr password).length < 64
  | .deliver luck => ∀ a, s.events.head? = some (.gotIp a) → s.Saving →
      s.JoinedForRequest a ∧ luck.SavesWhole
  | _ => True

/-! ## What a step does to the request -/

/-- The request is the same, nothing is saved, and the driver is given nothing but stored
credentials or those of the connect task. -/
structure Carries (s s' : Station) : Prop where
  request : s'.request = s.request
  connecting : s'.status = .connecting → s.status = .connecting ∧ s'.target = s.target
  success : s'.status = .success → s.status = .success
  stored : s'.stored = s.stored
  config : s'.config = s.config ∨ s'.config.request = none ∨
    ∃ t ∈ s.task, t.pc ≠ .greeting ∧ s'.config = ⟨t.config, some t.request⟩
  link : ∀ a ∈ s'.link.attempt, a = s'.config ∨ a ∈ s.link.attempt
  task : ∀ t ∈ s'.task, ∃ u ∈ s.task, t.request = u.request ∧
    (t.pc ≠ .greeting → u.pc ≠ .greeting ∧ t.config = u.config ∨ t.config = s.taskConfig)

/-- A new request. -/
structure Asks (s : Station) (password : Bytes) (s' : Station) : Prop where
  noTask : s.task = none
  request : s'.request = s.request + 1
  target : s'.target.password = strncpy 65 password
  success : s'.status ≠ .success
  stored : s'.stored = s.stored
  config : s'.config = s.config
  link : s'.link = s.link
  task : ∀ t ∈ s'.task, t.request = s'.request ∧ t.pc = .greeting

variable {s} {s' : Station} {luck : Luck}

/-- The driver joins with its configuration. -/
theorem JoinsBy.attempt {config : Attempt} {link : Link} (h : s.JoinsBy config link) :
    ∀ a ∈ link.attempt, a = config ∨ a ∈ s.link.attempt := by
  rcases h with rfl | ⟨-, rfl⟩
  · exact fun a ha => .inr ha
  · rintro a ⟨⟩
    exact .inl rfl

/-- The connect task stays where it is. -/
theorem Carries.of_same (hRequest : s'.request = s.request)
    (hConnecting : s'.status = .connecting → s.status = .connecting ∧ s'.target = s.target)
    (hSuccess : s'.status = .success → s.status = .success) (hStored : s'.stored = s.stored)
    (hConfig : s'.config = s.config) (hTask : s'.task = s.task)
    (hLink : ∀ a ∈ s'.link.attempt, a = s'.config ∨ a ∈ s.link.attempt) : Carries s s' where
  request := hRequest
  connecting := hConnecting
  success := hSuccess
  stored := hStored
  config := .inl hConfig
  link := hLink
  task t ht := ⟨t, hTask ▸ ht, rfl, fun hPc => .inl ⟨hPc, rfl⟩⟩

/-- Neither the request nor the configuration is touched. -/
theorem Carries.of_link (hRequest : s'.request = s.request) (hStatus : s'.status = s.status)
    (hTarget : s'.target = s.target) (hStored : s'.stored = s.stored)
    (hConfig : s'.config = s.config) (hTask : s'.task = s.task)
    (hLink : ∀ a ∈ s'.link.attempt, a = s'.config ∨ a ∈ s.link.attempt) : Carries s s' :=
  .of_same hRequest (fun hIs => ⟨hStatus ▸ hIs, hTarget⟩) (fun hIs => hStatus ▸ hIs) hStored hConfig
    hTask hLink

theorem carries_start (s : Station) (luck : Luck) : Carries s (s.wifiProvisionStart luck).1 := by
  have hLink : ∀ a ∈ s.link.attempt, a = s.config ∨ a ∈ s.link.attempt := fun a ha => .inr ha
  rcases s.wifiProvisionStart_cases luck with ⟨-, hEq⟩ | ⟨-, ⟨_, _, hEq⟩ | hEq⟩
  · rw [hEq]
    exact .of_link rfl rfl rfl rfl rfl rfl hLink
  · rw [hEq]
    exact .of_link rfl rfl rfl rfl rfl rfl hLink
  · rw [hEq]
    rcases openPortal_cases { s with previousMode := s.mode }.newPortal luck with
      ⟨_, _, _, hOpen, -⟩ | ⟨httpd, hOpen⟩
    · rw [hOpen]
      exact .of_same rfl (by rintro ⟨⟩) (by rintro ⟨⟩) rfl rfl rfl hLink
    · obtain ⟨_, _, hTake⟩ :=
        takeDnsSock_eq { { s with previousMode := s.mode }.newPortal with httpd := httpd, running := false }
      rw [hOpen, failPortal, hTake]
      exact .of_same rfl (by rintro ⟨⟩) (by rintro ⟨⟩) rfl rfl rfl hLink

theorem carries_ui (h : s.uiTurn luck = some s') : Carries s s' := by
  obtain ⟨status, target, _, _, _, _, _, _, _, _, rfl, hStatus, -, -⟩ := uiTurn_eq h
  refine .of_same rfl (fun hIs => ?_) (fun hIs => ?_) rfl rfl rfl fun _ hb => .inr hb
  · rcases hStatus with rfl | ⟨rfl, rfl⟩
    · contradiction
    · exact ⟨hIs, rfl⟩
  · rcases hStatus with rfl | ⟨rfl, -⟩
    · contradiction
    · exact hIs

/-- The connect task goes on, with the configuration it has. -/
theorem task_goes {t : ConnectTask} (hTask : s.task = some t) {pc : TaskPc}
    (hPc : pc = .greeting ∨ t.pc ≠ .greeting) :
    ∀ v ∈ some { t with pc := pc }, ∃ u ∈ s.task, v.request = u.request ∧
      (v.pc ≠ .greeting → u.pc ≠ .greeting ∧ v.config = u.config ∨ v.config = s.taskConfig) := by
  rintro v ⟨⟩
  exact ⟨t, hTask, rfl, fun hv => .inl ⟨hPc.resolve_left hv, rfl⟩⟩

theorem carries_conclude {t : ConnectTask} (hTask : s.task = some t) (hPc : t.pc ≠ .greeting) :
    Carries s (s.conclude luck t) := by
  obtain ⟨config, link, hEq, hWhy⟩ := s.conclude_eq luck t
  rw [hEq]
  refine ⟨rfl, fun hIs => ⟨hIs, rfl⟩, id, rfl, ?_, ?_, task_goes hTask (.inr hPc)⟩
  · rcases hWhy with ⟨rfl, -⟩ | ⟨c, -, rfl, -⟩
    · exact .inl rfl
    · exact .inr (.inl rfl)
  · rcases hWhy with ⟨rfl, rfl⟩ | ⟨c, -, rfl, hJoins⟩
    · exact fun a ha => .inr ha
    · exact hJoins.attempt

theorem carries_giveUp {t : ConnectTask} (hTask : s.task = some t) (hPc : t.pc ≠ .greeting) :
    Carries s (s.giveUp luck t) := by
  have hConclude : Carries { s with status := .failed } (s.giveUp luck t) :=
    carries_conclude (s := { s with status := .failed }) hTask hPc
  refine ⟨hConclude.request, ?_, ?_, hConclude.stored, hConclude.config, hConclude.link, hConclude.task⟩
  · intro hIs
    exact absurd (hConclude.connecting hIs).1 (by simp)
  · intro hIs
    exact absurd (hConclude.success hIs) (by simp)

theorem carries_join {t : ConnectTask} (hTask : s.task = some t) (hPc : t.pc ≠ .greeting) :
    Carries s (s.join luck t) := by
  have hOwn : (⟨t.config, some t.request⟩ : Attempt) = s.config ∨
      (⟨t.config, some t.request⟩ : Attempt).request = none ∨
      ∃ u ∈ s.task, u.pc ≠ .greeting ∧ (⟨t.config, some t.request⟩ : Attempt) = ⟨u.config, some u.request⟩ :=
    .inr (.inr ⟨t, hTask, hPc, rfl⟩)
  unfold join
  split
  · exact carries_giveUp hTask hPc
  · split
    · -- the configuration is set, and then the task gives up
      have hUp : Carries { s with config := ⟨t.config, some t.request⟩ }
          (giveUp { s with config := ⟨t.config, some t.request⟩ } luck t) := carries_giveUp hTask hPc
      refine ⟨hUp.request, hUp.connecting, hUp.success, hUp.stored, ?_, hUp.link, hUp.task⟩
      rcases hUp.config with hSame | hOther
      · rw [hSame]
        exact hOwn
      · exact .inr hOther
    · obtain ⟨link, hEq, hJoins⟩ := espWifiConnect_eq { s with config := ⟨t.config, some t.request⟩ } luck
      rw [hEq]
      exact ⟨rfl, fun hIs => ⟨hIs, rfl⟩, id, rfl, hOwn, hJoins.attempt, task_goes hTask (.inr hPc)⟩

theorem carries_task {t : ConnectTask} (hTask : s.task = some t) (h : s.taskTurn luck t = some s') :
    Carries s s' := by
  have hLink : ∀ a ∈ s.link.attempt, a = s.config ∨ a ∈ s.link.attempt := fun a ha => .inr ha
  unfold taskTurn at h
  cases hPc : t.pc with
  | greeting =>
    obtain ⟨_, _, hTake⟩ := s.takeDnsSock_eq
    simp only [hPc, Option.some.injEq, hTake] at h
    rw [← h]
    refine ⟨rfl, fun hIs => ⟨hIs, rfl⟩, id, rfl, .inl rfl, hLink, ?_⟩
    rintro v ⟨⟩
    exact ⟨t, hTask, rfl, fun _ => .inr rfl⟩
  | dnsDown =>
    simp only [hPc, Option.some.injEq] at h
    rw [← h]
    exact ⟨rfl, fun hIs => ⟨hIs, rfl⟩, id, rfl, .inl rfl, hLink, task_goes hTask (.inr (by simp [hPc]))⟩
  | httpDown =>
    obtain ⟨-, rfl⟩ : s.HttpDone ∧ s.tearDown luck t = s' := by simpa [hPc] using h
    obtain ⟨_, link, _, _, _, hEq, hWhy⟩ := s.tearDown_eq luck t
    rw [hEq]
    refine ⟨rfl, fun hIs => ⟨hIs, rfl⟩, id, rfl, .inl rfl, ?_, task_goes hTask (.inr (by simp [hPc]))⟩
    rcases hWhy with ⟨rfl, -⟩ | ⟨a, -, rfl, -⟩
    · exact hLink
    · rintro b ⟨⟩
  | leaving ok waited =>
    have hGo : t.pc ≠ .greeting := by simp [hPc]
    simp only [hPc] at h
    split at h
    · obtain rfl := Option.some.inj h
      have hJoin : Carries { s with expected := false } (join { s with expected := false } luck t) :=
        carries_join hTask hGo
      exact ⟨hJoin.request, hJoin.connecting, hJoin.success, hJoin.stored, hJoin.config, hJoin.link, hJoin.task⟩
    · obtain rfl := Option.some.inj h
      have hUp : Carries { s with expected := false } (giveUp { s with expected := false } luck t) :=
        carries_giveUp hTask hGo
      exact ⟨hUp.request, hUp.connecting, hUp.success, hUp.stored, hUp.config, hUp.link, hUp.task⟩
  | waiting =>
    have hGo : t.pc ≠ .greeting := by simp [hPc]
    simp only [hPc] at h
    split at h
    · obtain rfl := Option.some.inj h
      exact carries_conclude hTask hGo
    · split at h
      · obtain rfl := Option.some.inj h
        exact carries_giveUp hTask hGo
      · contradiction
  | finishHttp =>
    obtain ⟨-, rfl⟩ : s.HttpDone ∧ { s with httpd := false }.takeDnsSock.taskAt t .finishDns = s' := by
      simpa [hPc] using h
    obtain ⟨_, _, hTake⟩ := takeDnsSock_eq { s with httpd := false }
    rw [hTake]
    exact ⟨rfl, fun hIs => ⟨hIs, rfl⟩, id, rfl, .inl rfl, hLink, task_goes hTask (.inr (by simp [hPc]))⟩
  | finishDns =>
    simp only [hPc, Option.some.injEq] at h
    rw [← h]
    exact ⟨rfl, fun hIs => ⟨hIs, rfl⟩, id, rfl, .inl rfl, hLink, by rintro v ⟨⟩⟩

/-- A connect request that comes through, whether or not its task can be created. -/
theorem carries_or_asks (s : Station) (luck : Luck) (ssid password : Bytes) :
    Carries s (s.startStaConnect luck ssid password).1 ∨
      Asks s password (s.startStaConnect luck ssid password).1 := by
  rcases s.startStaConnect_cases luck ssid password with
    ⟨_, hEq⟩ | ⟨hTask, _, _, _, _, -, hEq | ⟨-, hEq⟩⟩
  · rw [hEq]
    exact .inl (.of_link rfl rfl rfl rfl rfl rfl fun a ha => .inr ha)
  · rw [hEq]
    refine .inr ⟨hTask, rfl, rfl, by simp, rfl, rfl, rfl, ?_⟩
    rintro t ⟨⟩
    exact ⟨rfl, rfl⟩
  · rw [hEq]
    refine .inr ⟨hTask, rfl, rfl, by simp, rfl, rfl, rfl, ?_⟩
    intro t ht
    simp [hTask] at ht

theorem connect_cases (s : Station) (luck : Luck) (ssid password : Bytes) :
    Carries s (s.wifiProvisionConnect luck ssid password) ∨
      Asks s password (s.wifiProvisionConnect luck ssid password) := by
  have hStart := s.carries_or_asks luck ssid password
  unfold wifiProvisionConnect
  split
  · rename_i s' hEq
    rw [hEq] at hStart
    refine hStart.imp (fun h => ?_) fun h => ?_
    · exact ⟨h.request, h.connecting, h.success, h.stored, h.config, h.link, h.task⟩
    · exact ⟨h.noTask, h.request, h.target, h.success, h.stored, h.config, h.link, h.task⟩
  · rename_i s' hEq
    rw [hEq] at hStart
    exact hStart

theorem httpConnect_cases (s : Station) (luck : Luck) (ssid password : Bytes) :
    Carries s (s.httpHandleConnect luck ssid password) ∨
      Asks s password (s.httpHandleConnect luck ssid password) := by
  have hStart := s.carries_or_asks luck ssid password
  unfold httpHandleConnect
  split
  · rename_i s' hEq
    rw [hEq] at hStart
    refine hStart.imp (fun h => ?_) fun h => ?_
    · exact ⟨h.request, h.connecting, h.success, h.stored, h.config, h.link, h.task⟩
    · exact ⟨h.noTask, h.request, h.target, h.success, h.stored, h.config, h.link, h.task⟩
  · rename_i s' hEq
    rw [hEq] at hStart
    exact hStart

theorem provision_gotIp (s : Station) (luck : Luck) (a : Attempt) :
    s.provisionHandlers luck (.gotIp a) = if s.Saving then s.save luck else s := by
  unfold provisionHandlers
  by_cases hHandlers : s.handlers = true
  · by_cases hSave : s.running = true ∧ s.status = .connecting ∧ s.OnTarget
    · rw [if_pos hHandlers, if_pos (show s.Saving from ⟨hHandlers, hSave⟩)]
      exact if_pos hSave
    · rw [if_pos hHandlers, if_neg fun hSaving : s.Saving => hSave hSaving.2]
      exact if_neg hSave
  · rw [if_neg hHandlers, if_neg fun hSaving : s.Saving => hHandlers hSaving.1]

/-- **The event task.** What the handlers of the oldest event do: a station that has started
joins, a connection that is lost is taken for a failure unless it was expected, and an address
may be saved. -/
theorem deliver_handled (h : s.deliver luck = some s') :
    ∃ e es, s.events = e :: es ∧
      ((∃ link, s' = { s with events := es, link := link } ∧ s.JoinsBy s.config link) ∨
        (∃ armed status expected,
          s' =
            { s with
              events := es
              connectedBit := false
              retryArmed := armed
              status := status
              expected := expected } ∧
          (status = s.status ∨ status = .failed) ∧ (expected = true → s.expected = true)) ∨
        ∃ a, e = .gotIp a ∧
          s' =
            if s.Saving then { s with events := es, connectedBit := true }.save luck
            else { s with events := es, connectedBit := true }) := by
  unfold deliver at h
  split at h
  · contradiction
  · rename_i e es hEvents
    obtain rfl := Option.some.inj h
    refine ⟨e, es, hEvents, ?_⟩
    cases e with
    | started =>
      left
      obtain ⟨link, hEq, hJoins⟩ := espWifiConnect_eq { s with events := es } luck
      refine ⟨link, ?_, hJoins⟩
      simp only [dlnaEventHandler, hEq, provisionHandlers]
      split <;> rfl
    | disconnected a =>
      right; left
      rw [dlna_disconnected]
      simp only [provisionHandlers, provisionLost]
      split
      · split
        · split
          · exact ⟨_, s.status, false, rfl, .inl rfl, by rintro ⟨⟩⟩
          · exact ⟨_, .failed, s.expected, rfl, .inr rfl, id⟩
        · exact ⟨_, s.status, s.expected, rfl, .inl rfl, id⟩
      · exact ⟨_, s.status, s.expected, rfl, .inl rfl, id⟩
    | gotIp a =>
      right; right
      refine ⟨a, rfl, ?_⟩
      have hDlna : { s with events := es }.dlnaEventHandler luck (.gotIp a) =
          { s with events := es, connectedBit := true } := rfl
      rw [hDlna, provision_gotIp]
      rfl

/-- Only an address that is taken for a success is saved. -/
theorem deliver_cases (h : s.deliver luck = some s') :
    Carries s s' ∨ ∃ a es, s.events = .gotIp a :: es ∧ s.Saving ∧
      s' = { s with events := es, connectedBit := true }.save luck := by
  have hLink : ∀ a ∈ s.link.attempt, a = s.config ∨ a ∈ s.link.attempt := fun a ha => .inr ha
  obtain ⟨e, es, hEvents, ⟨link, rfl, hJoins⟩ | ⟨armed, status, expected, rfl, hStatus, -⟩ |
    ⟨a, rfl, hEq⟩⟩ := deliver_handled h
  · exact .inl (.of_link rfl rfl rfl rfl rfl rfl hJoins.attempt)
  · refine .inl ?_
    rcases hStatus with rfl | rfl
    · exact .of_link rfl rfl rfl rfl rfl rfl hLink
    · exact .of_same rfl (by rintro ⟨⟩) (by rintro ⟨⟩) rfl rfl rfl hLink
  · split_ifs at hEq with hSaving
    · exact .inr ⟨a, es, hEvents, hSaving, hEq⟩
    · rw [hEq]
      exact .inl (.of_link rfl rfl rfl rfl rfl rfl hLink)

/-- **One step.** -/
theorem step_cases {a : Action} (h : s.step a = some s') :
    Carries s s' ∨
    (∃ ssid password luck, (a = .connect ssid password luck ∨ a = .httpConnect ssid password luck) ∧
      Asks s password s') ∨
    ∃ luck b es, a = .deliver luck ∧ s.events = .gotIp b :: es ∧ s.Saving ∧
      s' = { s with events := es, connectedBit := true }.save luck := by
  have hLink : ∀ a ∈ s.link.attempt, a = s.config ∨ a ∈ s.link.attempt := fun a ha => .inr ha
  cases a with
  | start luck =>
    obtain ⟨-, rfl⟩ := step_start h
    exact .inl (s.carries_start luck)
  | stop =>
    obtain ⟨-, rfl⟩ := step_stop h
    unfold wifiProvisionStop
    split
    · exact .inl (.of_link rfl rfl rfl rfl rfl rfl hLink)
    · exact .inl (.of_link rfl rfl rfl rfl rfl rfl hLink)
  | connect ssid password luck =>
    obtain ⟨-, rfl⟩ := step_connect h
    rcases s.connect_cases luck ssid password with hCarries | hAsks
    · exact .inl hCarries
    · exact .inr (.inl ⟨ssid, password, luck, .inl rfl, hAsks⟩)
  | ui luck => exact .inl (carries_ui h)
  | httpScan luck =>
    obtain ⟨-, rfl⟩ := step_httpScan h
    obtain ⟨link, events, hEq, hWhy⟩ := s.httpHandleScan_eq luck
    rw [hEq]
    refine .inl (.of_link rfl rfl rfl rfl rfl rfl ?_)
    rcases hWhy with ⟨rfl, -⟩ | ⟨a, -, rfl, -⟩
    · exact hLink
    · rintro b ⟨⟩
  | httpConnect ssid password luck =>
    obtain ⟨-, rfl⟩ := step_httpConnect h
    rcases s.httpConnect_cases luck ssid password with hCarries | hAsks
    · exact .inl hCarries
    · exact .inr (.inl ⟨ssid, password, luck, .inr rfl, hAsks⟩)
  | http luck =>
    obtain ⟨_, link, -, rfl, hJoins⟩ := httpTurn_eq h
    have hJoins : s.JoinsBy s.config link := hJoins.imp_right fun hIdle => hIdle.2
    exact .inl (.of_link rfl rfl rfl rfl rfl rfl hJoins.attempt)
  | task luck =>
    obtain ⟨t, hTask, hTurn⟩ := step_task h
    exact .inl (carries_task hTask hTurn)
  | dns n luck =>
    obtain ⟨t, -, hTurn⟩ := step_dns h
    unfold dnsTurn at hTurn
    split at hTurn
    · split at hTurn
      · exact Option.some.inj hTurn ▸ .inl (.of_link rfl rfl rfl rfl rfl rfl hLink)
      · split at hTurn
        · exact Option.some.inj hTurn ▸ .inl (.of_link rfl rfl rfl rfl rfl rfl hLink)
        · exact Option.some.inj hTurn ▸ .inl (.of_link rfl rfl rfl rfl rfl rfl hLink)
    · split at hTurn
      · contradiction
      · exact Option.some.inj hTurn ▸ .inl (.of_link rfl rfl rfl rfl rfl rfl hLink)
  | wlanScan luck =>
    obtain ⟨-, rfl⟩ := step_wlanScan h
    obtain ⟨link, events, was, hEq, hWhy⟩ := s.wlanScanStart_eq luck
    rw [hEq]
    refine .inl (.of_link rfl rfl rfl rfl rfl rfl ?_)
    rcases hWhy with ⟨rfl, -⟩ | ⟨a, -, rfl, -⟩
    · exact hLink
    · rintro b ⟨⟩
  | wlan luck =>
    obtain ⟨link, rfl, -, hJoins⟩ := wlanScanTurn_eq h
    exact .inl (.of_link rfl rfl rfl rfl rfl rfl hJoins.attempt)
  | joined =>
    obtain ⟨a, hIs, rfl⟩ := joined_eq h
    refine .inl (.of_link rfl rfl rfl rfl rfl rfl ?_)
    rintro b ⟨⟩
    exact .inr (by simp [hIs, Link.attempt])
  | addressed =>
    obtain ⟨a, hIs, rfl⟩ := addressed_eq h
    refine .inl (.of_link rfl rfl rfl rfl rfl rfl ?_)
    rintro b ⟨⟩
    refine .inr ?_
    cases hLinkIs : s.link <;> simp_all [Link.ap, Link.attempt]
  | lost =>
    obtain ⟨a, -, rfl⟩ := lost_eq h
    refine .inl (.of_link rfl rfl rfl rfl rfl rfl ?_)
    rintro b ⟨⟩
  | deliver luck =>
    rcases deliver_cases h with hCarries | ⟨b, es, hEvents, hSaving, hEq⟩
    · exact .inl hCarries
    · exact .inr (.inr ⟨luck, b, es, rfl, hEvents, hSaving, hEq⟩)
  | timer luck =>
    obtain ⟨-, link, rfl, hJoins⟩ := timer_eq h
    have hJoins : s.JoinsBy s.config link := hJoins.imp_right fun hIdle => hIdle.2
    exact .inl (.of_link rfl rfl rfl rfl rfl rfl hJoins.attempt)

/-! ## The invariant -/

/-- What an attempt for the latest request joins with, as long as the request is under way. -/
def Made (s : Station) (a : Attempt) : Prop :=
  ∀ r ∈ a.request, r ≤ s.request ∧ (r = s.request → s.status = .connecting → a.config = s.taskConfig)

structure RequestInv (s : Station) : Prop where
  config : s.Made s.config
  link : ∀ a ∈ s.link.attempt, s.Made a
  task : ∀ t ∈ s.task, t.request = s.request ∧
    (t.pc ≠ .greeting → s.status = .connecting → t.config = s.taskConfig)
  /-- the password of the target is not cut short -/
  password : s.status = .connecting → strncpy 64 s.target.password = s.target.password

theorem Carries.made (h : Carries s s') {a : Attempt} (hMade : s.Made a) : s'.Made a := by
  intro r hr
  obtain ⟨hLe, hConfig⟩ := hMade r hr
  rw [h.request]
  refine ⟨hLe, fun hLatest hIs => ?_⟩
  obtain ⟨hWas, hTarget⟩ := h.connecting hIs
  rw [taskConfig, hTarget]
  exact hConfig hLatest hWas

theorem Carries.inv (h : Carries s s') (hInv : RequestInv s) : RequestInv s' := by
  have hTaskConfig (hIs : s'.status = .connecting) : s'.taskConfig = s.taskConfig := by
    rw [taskConfig, (h.connecting hIs).2, taskConfig]
  have hMade : s'.Made s'.config := by
    rcases h.config with hSame | hNone | ⟨t, ht, hPc, hOwn⟩
    · rw [hSame]
      exact h.made hInv.config
    · intro r hr
      rw [hNone] at hr
      contradiction
    · refine h.made ?_
      rw [hOwn]
      rintro r ⟨⟩
      obtain ⟨hRequest, hConfig⟩ := hInv.task t ht
      exact ⟨hRequest.le, fun _ hIs => hConfig hPc hIs⟩
  refine ⟨hMade, fun a ha => ?_, fun t ht => ?_, fun hIs => ?_⟩
  · rcases h.link a ha with rfl | hOld
    · exact hMade
    · exact h.made (hInv.link a hOld)
  · obtain ⟨u, hu, hRequest, hConfig⟩ := h.task t ht
    obtain ⟨hLatest, hCopied⟩ := hInv.task u hu
    refine ⟨hRequest.trans (hLatest.trans h.request.symm), fun hPc hIs => ?_⟩
    rw [hTaskConfig hIs]
    rcases hConfig hPc with ⟨hPc', hSame⟩ | hCopy
    · exact hSame.trans (hCopied hPc' (h.connecting hIs).1)
    · exact hCopy
  · obtain ⟨hWas, hTarget⟩ := h.connecting hIs
    rw [hTarget]
    exact hInv.password hWas

/-- A password that fits is copied whole. -/
theorem strncpy_password {password : Bytes} (hFits : (cstr password).length < 64) :
    strncpy 64 (strncpy 65 password) = strncpy 65 password := by
  have hWhole : strncpy 65 password = cstr password := List.take_of_length_le (by omega)
  have hTwice : cstr (cstr password) = cstr password := List.takeWhile_idem
  rw [hWhole, strncpy, hTwice]
  exact List.take_of_length_le (by omega)

theorem Asks.inv {password : Bytes} (h : Asks s password s') (hFits : (cstr password).length < 64)
    (hInv : RequestInv s) : RequestInv s' := by
  -- all attempts there are were made for earlier requests
  have hMade (a : Attempt) (hOld : s.Made a) : s'.Made a := by
    intro r hr
    have hLe := (hOld r hr).1
    rw [h.request]
    exact ⟨hLe.trans (Nat.le_succ _), fun hLatest => absurd hLe (by omega)⟩
  refine ⟨?_, fun a ha => hMade a (hInv.link a (h.link ▸ ha)), fun t ht => ?_, fun _ => ?_⟩
  · rw [h.config]
    exact hMade _ hInv.config
  · exact ⟨(h.task t ht).1, fun hPc => absurd (h.task t ht).2 hPc⟩
  · rw [h.target]
    exact strncpy_password hFits

/-- Both keys, or none of them. -/
theorem save_cases (s : Station) (hWhole : luck.SavesWhole) :
    s.save luck = { s with status := .failed } ∨
      s.save luck = { s with
        status := .success
        nvsSsid := some s.target.ssid
        nvsPassword := some s.target.password } := by
  rcases hWhole with hOpen | hSsid | ⟨hPassword, hCommit⟩
  · exact .inl (by simp [save, saveCredentials, hOpen])
  · exact .inl (by simp [save, saveCredentials, hSsid])
  · cases hOpen : luck.nvsOpen <;> cases hSsid : luck.nvsSsid
    case true.true => exact .inr (by simp [save, saveCredentials, hOpen, hSsid, hPassword, hCommit])
    all_goals exact .inl (by simp [save, saveCredentials, hOpen, hSsid])

theorem RequestInv.saved (h : RequestInv s) {s' : Station} (hStatus : s'.status ≠ .connecting)
    (hRequest : s'.request = s.request) (hConfig : s'.config = s.config) (hLink : s'.link = s.link)
    (hTask : s'.task = s.task) : RequestInv s' := by
  have hMade (a : Attempt) (hOld : s.Made a) : s'.Made a := fun r hr =>
    ⟨hRequest ▸ (hOld r hr).1, fun _ hIs => absurd hIs hStatus⟩
  refine ⟨hConfig ▸ hMade _ h.config, fun a ha => hMade a (h.link a (hLink ▸ ha)), fun t ht => ?_,
    fun hIs => absurd hIs hStatus⟩
  exact ⟨hRequest ▸ (h.task t (hTask ▸ ht)).1, fun _ hIs => absurd hIs hStatus⟩

/-- The target is what the station has joined with. -/
theorem RequestInv.target_of_joined (h : RequestInv s) (hSaving : s.Saving) {a : Attempt}
    (hJoined : s.JoinedForRequest a) : a.config = s.target := by
  obtain ⟨-, -, hConnecting, b, hb, hSsid⟩ := hSaving
  obtain ⟨hAp, hRequest⟩ := hJoined
  obtain rfl : a = b := Option.some.inj (hAp.symm.trans hb)
  have hAttempt : a ∈ s.link.attempt := by
    cases hLink : s.link <;> simp_all [Link.ap, Link.attempt]
  have hConfig := (h.link a hAttempt s.request hRequest).2 rfl hConnecting
  have hPassword : a.config.password = s.target.password := by
    rw [hConfig]
    exact h.password hConnecting
  calc a.config = ⟨a.config.ssid, a.config.password⟩ := rfl
    _ = ⟨s.target.ssid, s.target.password⟩ := by rw [hSsid, hPassword]

theorem RequestInv.step (h : RequestInv s) {a : Action} (hStep : s.step a = some s')
    (hSound : s.Sound a) : RequestInv s' ∧ s.Proven s' := by
  rcases step_cases hStep with hCarries | ⟨ssid, password, luck, hIs, hAsks⟩ |
    ⟨luck, b, es, rfl, hEvents, hSaving, rfl⟩
  · refine ⟨hCarries.inv h, ⟨fun hChange => ?_, fun _ => hCarries.stored⟩⟩
    rcases hChange with hStored | ⟨hSuccess, hNot⟩
    · exact absurd hCarries.stored hStored
    · exact absurd (hCarries.success hSuccess) hNot
  · have hFits : (cstr password).length < 64 := by
      rcases hIs with rfl | rfl <;> exact hSound
    refine ⟨hAsks.inv hFits h, ⟨fun hChange => ?_, fun _ => hAsks.stored⟩⟩
    rcases hChange with hStored | ⟨hSuccess, -⟩
    · exact absurd hAsks.stored hStored
    · exact absurd hSuccess hAsks.success
  · have hHead : s.events.head? = some (.gotIp b) := by rw [hEvents, List.head?_cons]
    obtain ⟨hJoined, hWhole⟩ := hSound b hHead hSaving
    have hTarget : b.config = s.target := h.target_of_joined hSaving hJoined
    rcases save_cases { s with events := es, connectedBit := true } hWhole with hEq | hEq
    · rw [hEq]
      refine ⟨h.saved (by simp) rfl rfl rfl rfl, ⟨fun hChange => ?_, fun _ => rfl⟩⟩
      rcases hChange with hStored | ⟨hSuccess, -⟩
      · exact absurd rfl hStored
      · contradiction
    · rw [hEq]
      refine ⟨h.saved (by simp) rfl rfl rfl rfl, ⟨fun _ => ⟨b, hHead, hJoined, ?_⟩, fun hNot => absurd rfl hNot⟩⟩
      rw [hTarget]
      rfl

theorem requestInv_boot (config : Credentials) (nvsSsid nvsPassword : Option Bytes) :
    RequestInv (boot config nvsSsid nvsPassword) where
  config := by rintro _ ⟨⟩
  link := by rintro _ ⟨⟩
  task := by rintro _ ⟨⟩
  password := by rintro ⟨⟩

/-- **Every run.** What is saved is what has been tried, as long as the steps are sound. -/
theorem proven_along (config : Credentials) (nvsSsid nvsPassword : Option Bytes)
    (as : List Action)
    (h : Along step (fun s a _ => s.Sound a) (boot config nvsSsid nvsPassword) as) :
    Along step (fun s _ s' => s.Proven s') (boot config nvsSsid nvsPassword) as :=
  Along.of_invariant (fun _ _ _ hInv hStep hSound => hInv.step hStep hSound)
    (requestInv_boot config nvsSsid nvsPassword) h

/-! ## The right network, the wrong password -/

/-- Checked for the event that is next. -/
instance (s : Station) : ∀ a, Decidable (s.Sound a)
  | .connect _ password _ | .httpConnect _ password _ =>
    inferInstanceAs (Decidable ((cstr password).length < 64))
  | .deliver luck =>
    match h : s.events.head? with
    | some (.gotIp a) =>
      decidable_of_iff (s.Saving → s.JoinedForRequest a ∧ luck.SavesWhole)
        ⟨fun hAll b hb => by cases h.symm.trans hb; exact hAll, fun hAll => hAll a h⟩
    | some .started => .isTrue fun b hb => by cases h.symm.trans hb
    | some (.disconnected _) => .isTrue fun b hb => by cases h.symm.trans hb
    | none => .isTrue fun b hb => by cases h.symm.trans hb
  | .start _ | .stop | .ui _ | .httpScan _ | .http _ | .task _ | .dns _ _ | .wlanScan _ | .wlan _
  | .joined | .addressed | .lost | .timer _ => .isTrue trivial

theorem proven_along_of_cafe :
    Along step (fun s _ s' => s.Proven s') bootedAtHome (goOnline ++ choose (ascii "cafe")) :=
  proven_along _ _ _ _ (by decide +kernel)

/-- The station has joined its network when the user enters another password for it, and
gets its address while the connect task still waits. -/
theorem saved_unproven :
    ¬∀ (config : Credentials) (nvsSsid nvsPassword : Option Bytes) (as : List Action),
      Along step (fun s _ s' => s.Proven s') (boot config nvsSsid nvsPassword) as := by
  intro hAll
  obtain ⟨s, s', hRun, hStep, hSaved⟩ := exists_last_of_any
    (show (run step bootedAtHome
        [.deliver allWell, .joined, .connect (ascii "home") (ascii "guess") allWell, .addressed]).any
      (fun s => (s.step (.deliver allWell)).any fun s' =>
        decide (s.status = .connecting ∧ s'.status = .success ∧
          s.events = [.gotIp ⟨⟨ascii "home", ascii "secret"⟩, none⟩])) = true by decide +kernel)
  obtain ⟨hWas, hSuccess, hEvents⟩ := of_decide_eq_true hSaved
  have hNot : s.status ≠ .success := by simp [hWas]
  obtain ⟨a, hHead, hJoined, -⟩ := ((hAll _ _ _ _).last hRun hStep).proven (.inr ⟨hSuccess, hNot⟩)
  rw [hEvents, List.head?_cons] at hHead
  cases hHead
  exact absurd hJoined.2 (by simp)

end Station

end EspMiplay.Wifi
