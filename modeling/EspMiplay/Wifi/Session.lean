import EspMiplay.Wifi.ProvisionSteps

/-!
# The life of a session

One flag (`s_running`) stands for a portal and for a bare connect attempt, and a session is
ended by `wifi_provision_stop` or by its connect task, whichever comes first. The name
server closes its own socket when it sees that the session is over; `dns_stop` closes it
too.

`Names` is what the name servers share. As long as the steps are `Tidy`, nothing but the
name server itself touches it.

## Results

* `NamesInv`, `SessionInv` — the invariants; `SessionInv.step` keeps them.
* `lifecycle_along`        — the law of a session along every run of `Tidy` steps.
* `dns_closed_twice`       — a portal is opened and closed.
-/

namespace EspMiplay.Wifi

open Transition
open EspMiplay.Miplay (Bytes ascii)

/-- What belongs to the name servers. -/
structure Names where
  /-- `s_dns_task` -/
  handle : Option Nat
  /-- `s_dns_sock` -/
  sock : Option Nat
  tasks : List DnsTask
  sockets : Nat
  closes : List Nat

namespace Station

variable (s : Station)

def names : Names := ⟨s.dnsTask, s.dnsSock, s.dns, s.sockets, s.closes⟩

/-! ## What is wanted -/

/-- The access point and both servers of the portal are up. -/
structure PortalUp : Prop where
  mode : s.mode = .apsta
  http : s.httpd = true
  dns : ∃ t ∈ s.dns, ∀ k ∈ t.sock, k ∉ s.closes

/-- The session goes on as before. -/
structure SameSession (s' : Station) : Prop where
  running : s'.running = s.running
  status : s'.status = s.status
  mode : s'.mode = s.mode
  http : s'.httpd = s.httpd
  handlers : s'.handlers = s.handlers
  names : s'.names = s.names

/-- What a step leaves of the sessions. -/
structure Lifecycle (s : Station) (a : Action) (s' : Station) : Prop where
  up : ∀ luck, a = .start luck → (s.wifiProvisionStart luck).2 = true → s'.PortalUp
  /-- a connect task does nothing to a session that is not its own -/
  own : ∀ luck, a = .task luck → ∀ t ∈ s.task, t.session ≠ s.session → s.SameSession s'
  closedOnce : s'.closes.Nodup
  closed : ∀ k, 0 < k → k ≤ s'.sockets → k ∈ s'.closes ∨ ∃ t ∈ s'.dns, t.sock = some k
  handle : s'.dnsTask.isSome ↔ s'.dns ≠ []

/-- Nobody else has the socket of the name server open when `dns_stop` takes it, and when
`dns_stop` stops waiting the name server has ended. -/
def TidyUi : UiPc → Prop
  | .stopHttp | .finishHttp => s.dnsSock = none
  | .stopDns | .finishDns => s.dns = []
  | .idle | .failDns | .failHttp => True

def TidyTask : TaskPc → Prop
  | .greeting | .finishHttp => s.dnsSock = none
  | .dnsDown | .finishDns => s.dns = []
  | .httpDown | .leaving _ _ | .waiting => True

/-- A session that is found is a portal that is up, and a new one meets no connect task; the
name server gets its socket, and has ended before `dns_stop` needs it. -/
def Tidy : Action → Prop
  | .start _ => if s.running then s.PortalUp else s.task = none
  | .ui _ => s.TidyUi s.ui
  | .task _ => ∀ t ∈ s.task, s.TidyTask t.pc
  | .dns n luck => ∀ t ∈ s.dns[n]?, t.sock = none → luck.socket = true ∧ luck.bind = true
  | _ => True

end Station

/-! ## The name server -/

/-- There is one name server or none, its socket is open, and every other one is closed. -/
structure NamesInv (n : Names) : Prop where
  one : n.tasks = [] ∧ n.handle = none ∧ n.sock = none ∨
    ∃ t, n.tasks = [t] ∧ n.handle.isSome ∧ n.sock = t.sock
  nodup : n.closes.Nodup
  opened : ∀ k ∈ n.closes, k ≤ n.sockets
  sock : ∀ t ∈ n.tasks, ∀ k ∈ t.sock, k ∉ n.closes ∧ k ≤ n.sockets
  closed : ∀ k, 0 < k → k ≤ n.sockets → k ∈ n.closes ∨ ∃ t ∈ n.tasks, t.sock = some k

namespace NamesInv

variable {n : Names} (h : NamesInv n)

include h

theorem handle_iff : n.handle.isSome ↔ n.tasks ≠ [] := by
  rcases h.one with ⟨hNil, hHandle, -⟩ | ⟨t, hOne, hHandle, -⟩
  · simp [hNil, hHandle]
  · simp [hOne, hHandle]

/-- Without a name server there is nothing to clear. -/
theorem of_nil (hNil : n.tasks = []) : n.handle = none ∧ n.sock = none := by
  rcases h.one with ⟨-, hHandle, hSock⟩ | ⟨t, hOne, -⟩
  · exact ⟨hHandle, hSock⟩
  · simp [hOne] at hNil

/-- A new name server. -/
theorem create (hNil : n.tasks = []) (id : Nat) :
    NamesInv { n with handle := some id, tasks := [⟨id, none⟩] } where
  one := .inr ⟨⟨id, none⟩, rfl, rfl, (h.of_nil hNil).2⟩
  nodup := h.nodup
  opened := h.opened
  sock t hMem := by
    obtain rfl := List.mem_singleton.1 hMem
    rintro k ⟨⟩
  closed k hPos hLe := by
    refine .inl ((h.closed k hPos hLe).resolve_right ?_)
    rintro ⟨t, hMem, -⟩
    simp [hNil] at hMem

/-- It opens its socket. -/
theorem openSock {t : DnsTask} (hOne : n.tasks = [t]) (hNone : t.sock = none) :
    NamesInv { n with
      sock := some (n.sockets + 1)
      tasks := [⟨t.id, some (n.sockets + 1)⟩]
      sockets := n.sockets + 1 } where
  one := by
    obtain ⟨hNil, -⟩ | ⟨u, -, hHandle, -⟩ := h.one
    · simp [hOne] at hNil
    · exact .inr ⟨_, rfl, hHandle, rfl⟩
  nodup := h.nodup
  opened k hMem := (h.opened k hMem).trans (Nat.le_succ _)
  sock u hMem := by
    obtain rfl := List.mem_singleton.1 hMem
    rintro k ⟨⟩
    exact ⟨fun hClosed => absurd (h.opened _ hClosed) (Nat.not_succ_le_self _), le_rfl⟩
  closed k hPos hLe := by
    rcases Nat.lt_or_eq_of_le hLe with hOld | rfl
    · refine .inl ((h.closed k hPos (Nat.le_of_lt_succ hOld)).resolve_right ?_)
      rintro ⟨u, hMem, hSock⟩
      rw [hOne, List.mem_singleton] at hMem
      rw [hMem, hNone] at hSock
      contradiction
    · exact .inr ⟨_, List.mem_singleton_self _, rfl⟩

/-- It closes its socket and ends. -/
theorem exit {t : DnsTask} {k : Nat} (hOne : n.tasks = [t]) (hSock : t.sock = some k) :
    NamesInv { n with handle := none, sock := none, tasks := [], closes := k :: n.closes } where
  one := .inl ⟨rfl, rfl, rfl⟩
  nodup := List.nodup_cons.2 ⟨(h.sock t (by simp [hOne]) k hSock).1, h.nodup⟩
  opened := List.forall_mem_cons.2 ⟨(h.sock t (by simp [hOne]) k hSock).2, h.opened⟩
  sock _ hMem := absurd hMem List.not_mem_nil
  closed j hPos hLe := by
    refine .inl ?_
    rcases h.closed j hPos hLe with hOld | ⟨u, hMem, hUSock⟩
    · exact List.mem_cons_of_mem _ hOld
    · rw [hOne, List.mem_singleton] at hMem
      rw [hMem, hSock] at hUSock
      exact Option.some.inj hUSock ▸ List.mem_cons_self

end NamesInv

/-! ## The invariant -/

namespace Station

variable {s s' : Station} {luck : Luck}

/-- The connect task belongs to the session that runs, and a session has ended with its
name server. -/
structure SessionInv (s : Station) : Prop where
  names : NamesInv s.names
  task : ∀ t ∈ s.task, t.session = s.session
  ended : s.running = false → s.task = none → s.ui = .idle → s.dns = []
  failing : s.ui = .failDns ∨ s.ui = .failHttp → s.dns = []

/-- Most steps have nothing to do with all this. -/
theorem SessionInv.of_same (h : SessionInv s) (hNames : s'.names = s.names)
    (hRunning : s'.running = s.running) (hSession : s'.session = s.session) (hTask : s'.task = s.task)
    (hUi : s'.ui = s.ui) : SessionInv s' := by
  have hDns : s'.dns = s.dns := congrArg Names.tasks hNames
  constructor
  · rw [hNames]
    exact h.names
  · rw [hTask, hSession]
    exact h.task
  · rw [hRunning, hTask, hUi, hDns]
    exact h.ended
  · rw [hUi, hDns]
    exact h.failing

/-- The connect task goes on, in a session that may have ended. -/
theorem SessionInv.goOn (h : SessionInv s) {t u : ConnectTask} (hTask : s.task = some t)
    (hNames : s'.names = s.names) (hSession : s'.session = s.session)
    (hTask' : s'.task = some u) (hOwn : u.session = t.session) (hUi : s'.ui = s.ui) : SessionInv s' := by
  have hDns : s'.dns = s.dns := congrArg Names.tasks hNames
  constructor
  · rw [hNames]
    exact h.names
  · intro v hv
    obtain rfl : u = v := Option.some.inj (hTask'.symm.trans hv)
    rw [hSession, hOwn]
    exact h.task t hTask
  · intro _ hNone
    rw [hTask'] at hNone
    contradiction
  · rw [hUi, hDns]
    exact h.failing

/-- A call of the UI task goes on. -/
theorem SessionInv.uiOn (h : SessionInv s) (hNames : s'.names = s.names)
    (hSession : s'.session = s.session) (hTask : s'.task = s.task)
    (hUi : s'.ui ≠ .idle) (hFailing : s'.ui = .failDns ∨ s'.ui = .failHttp → s.dns = []) :
    SessionInv s' := by
  have hDns : s'.dns = s.dns := congrArg Names.tasks hNames
  constructor
  · rw [hNames]
    exact h.names
  · rw [hTask, hSession]
    exact h.task
  · intro _ _ hIdle
    exact absurd hIdle hUi
  · rw [hDns]
    exact hFailing

/-- The name servers are gone, whoever waited for it. -/
theorem SessionInv.gone (h : SessionInv s) (hNames : s'.names = s.names)
    (hDns : s.dns = []) (hTask : ∀ t ∈ s'.task, t.session = s'.session) : SessionInv s' := by
  have hDns' : s'.dns = [] := (congrArg Names.tasks hNames).trans hDns
  exact ⟨hNames ▸ h.names, hTask, fun _ _ _ => hDns', fun _ => hDns'⟩

/-- Nothing is there for `dns_stop` to take. -/
theorem names_takeDnsSock (h : s.dnsSock = none) : s.takeDnsSock = s := takeDnsSock_of_none h

/-- Nothing is there for `dns_stop` to clear. -/
theorem SessionInv.handle_of_nil (h : SessionInv s) (hDns : s.dns = []) : s.dnsTask = none :=
  (h.names.of_nil hDns).1

theorem SessionInv.dns_of_nil (h : SessionInv s) (hDns : s.dns = []) : s.dnsSock = none :=
  (h.names.of_nil hDns).2

/-! ## The calls -/

theorem failPortal_of_none (h : s.dnsSock = none) :
    s.failPortal = { s with running := false, ui := .failDns } := by
  unfold failPortal
  rw [takeDnsSock_of_none (by exact h)]

theorem SessionInv.start (h : SessionInv s) (hUi : s.ui = .idle)
    (hTidy : s.Tidy (.start luck)) : SessionInv (s.wifiProvisionStart luck).1 ∧
      ((s.wifiProvisionStart luck).2 = true → (s.wifiProvisionStart luck).1.PortalUp) := by
  unfold Tidy at hTidy
  rcases s.wifiProvisionStart_cases luck with ⟨hRunning, hEq⟩ | ⟨hRunning, ⟨_, _, hEq⟩ | hEq⟩
  · rw [hEq]
    rw [if_pos hRunning] at hTidy
    exact ⟨h, fun _ => hTidy⟩
  · rw [hEq]
    exact ⟨h.of_same rfl rfl rfl rfl rfl, by rintro ⟨⟩⟩
  · have hTask : s.task = none := by simpa [hRunning] using hTidy
    have hDns : s.dns = [] := h.ended hRunning hTask hUi
    have hHandle : s.dnsTask = none := h.handle_of_nil hDns
    have hNone : ∀ t ∈ s.task, t.session = s.session + 1 := by simp [hTask]
    rw [hEq]
    rcases openPortal_cases { s with previousMode := s.mode }.newPortal luck with
      ⟨dnsTask, dns, dnsTasks, hOpen, hSome | ⟨-, rfl, rfl, rfl⟩⟩ | ⟨httpd, hOpen⟩
    · have hSome : s.dnsTask.isSome := hSome.1
      simp [hHandle] at hSome
    · -- a new name server
      rw [hOpen]
      refine ⟨⟨?_, hNone, ?_, ?_⟩, fun _ => ⟨rfl, rfl, ⟨s.dnsTasks + 1, none⟩, ?_, by rintro k ⟨⟩⟩⟩
      · have hCreated := h.names.create hDns (s.dnsTasks + 1)
        have hTasks : s.dns ++ [⟨s.dnsTasks + 1, none⟩] = [⟨s.dnsTasks + 1, none⟩] := by simp [hDns]
        show NamesInv ⟨some (s.dnsTasks + 1), s.dnsSock, s.dns ++ [⟨s.dnsTasks + 1, none⟩], s.sockets, s.closes⟩
        rw [hTasks]
        exact hCreated
      · rintro ⟨⟩
      · intro hFailing
        exact absurd hFailing (by simp [newPortal, hUi])
      · exact List.mem_append_right _ (List.mem_singleton_self _)
    · have hSock : ({ { s with previousMode := s.mode }.newPortal with httpd := httpd }).dnsSock = none :=
        h.dns_of_nil hDns
      rw [hOpen, failPortal_of_none hSock]
      exact ⟨h.gone rfl hDns hNone, by rintro ⟨⟩⟩

/-- A connect request: the session it belongs to is the one that runs. -/
theorem SessionInv.startSta (h : SessionInv s) (luck : Luck) (ssid password : Bytes) :
    SessionInv (s.startStaConnect luck ssid password).1 := by
  rcases s.startStaConnect_cases luck ssid password with
    ⟨_, hEq⟩ | ⟨hTask, _, _, _, session, -, hEq | ⟨-, hEq⟩⟩
  · rw [hEq]
    exact h.of_same rfl rfl rfl rfl rfl
  · rw [hEq]
    refine ⟨h.names, ?_, ?_, h.failing⟩
    · rintro t ⟨⟩
      rfl
    · rintro ⟨⟩
  · rw [hEq]
    refine ⟨h.names, ?_, h.ended, h.failing⟩
    intro t ht
    simp [hTask] at ht

theorem SessionInv.connect (h : SessionInv s) (ssid password : Bytes) :
    SessionInv (s.wifiProvisionConnect luck ssid password) := by
  have hStart := h.startSta luck ssid password
  unfold wifiProvisionConnect
  split
  · rename_i s' hEq
    rw [hEq] at hStart
    exact hStart.uiOn rfl rfl rfl (by rintro ⟨⟩) (by simp)
  · rename_i s' hEq
    rw [hEq] at hStart
    exact hStart

theorem SessionInv.httpConnect (h : SessionInv s) (ssid password : Bytes) :
    SessionInv (s.httpHandleConnect luck ssid password) := by
  have hStart := h.startSta luck ssid password
  unfold httpHandleConnect
  split
  · rename_i s' hEq
    rw [hEq] at hStart
    exact hStart.of_same rfl rfl rfl rfl rfl
  · rename_i s' hEq
    rw [hEq] at hStart
    exact hStart

theorem SessionInv.ui (h : SessionInv s) (hTidy : s.TidyUi s.ui) (hStep : s.uiTurn luck = some s') :
    SessionInv s' := by
  unfold uiTurn at hStep
  cases hUi : s.ui with
  | idle => simp [hUi] at hStep
  | stopHttp =>
    have hSock : s.dnsSock = none := by simpa [TidyUi, hUi] using hTidy
    obtain ⟨-, rfl⟩ : s.HttpDone ∧ { s with httpd := false, ui := .stopDns } = s' := by
      simpa [hUi, takeDnsSock, hSock] using hStep
    exact h.uiOn rfl rfl rfl (by rintro ⟨⟩) (by simp)
  | stopDns =>
    have hDns : s.dns = [] := by simpa [TidyUi, hUi] using hTidy
    simp only [hUi, Option.some.injEq] at hStep
    rw [← hStep, espWifiSetMode_eq]
    refine h.gone ?_ hDns h.task
    simp [Station.names, h.handle_of_nil hDns]
  | finishHttp =>
    have hSock : s.dnsSock = none := by simpa [TidyUi, hUi] using hTidy
    obtain ⟨-, rfl⟩ : s.HttpDone ∧ { s with httpd := false, ui := .finishDns } = s' := by
      simpa [hUi, takeDnsSock, hSock] using hStep
    exact h.uiOn rfl rfl rfl (by rintro ⟨⟩) (by simp)
  | finishDns =>
    have hDns : s.dns = [] := by simpa [TidyUi, hUi] using hTidy
    simp only [hUi, Option.some.injEq] at hStep
    rw [← hStep]
    refine h.gone ?_ hDns h.task
    simp [Station.names, h.handle_of_nil hDns]
  | failDns =>
    have hDns : s.dns = [] := h.failing (.inl hUi)
    simp only [hUi, Option.some.injEq] at hStep
    rw [← hStep]
    refine h.gone ?_ hDns h.task
    simp [Station.names, h.handle_of_nil hDns]
  | failHttp =>
    have hDns : s.dns = [] := h.failing (.inr hUi)
    obtain ⟨-, hEq⟩ : s.HttpDone ∧ ({ s with httpd := false, handlers := false, ui := .idle }.espWifiSetMode
        s.previousMode luck.restoreMode) = s' := by
      simpa [hUi] using hStep
    rw [← hEq, espWifiSetMode_eq]
    exact h.gone rfl hDns h.task

/-! ## The tasks -/

theorem SessionInv.concluded (h : SessionInv s) {t : ConnectTask} (hTask : s.task = some t) :
    SessionInv (s.conclude luck t) ∧ (s.conclude luck t).names = s.names := by
  obtain ⟨config, link, hEq, -⟩ := s.conclude_eq luck t
  rw [hEq]
  exact ⟨h.goOn hTask rfl rfl rfl rfl rfl, rfl⟩

theorem SessionInv.task_turn (h : SessionInv s) {t : ConnectTask} (hTask : s.task = some t)
    (hTidy : s.TidyTask t.pc) (hStep : s.taskTurn luck t = some s') : SessionInv s' := by
  unfold taskTurn at hStep
  cases hPc : t.pc with
  | greeting =>
    have hSock : s.dnsSock = none := by simpa [TidyTask, hPc] using hTidy
    simp only [hPc, Option.some.injEq, takeDnsSock_of_none hSock] at hStep
    rw [← hStep]
    exact h.goOn hTask rfl rfl rfl rfl rfl
  | dnsDown =>
    have hDns : s.dns = [] := by simpa [TidyTask, hPc] using hTidy
    simp only [hPc, Option.some.injEq] at hStep
    rw [← hStep]
    refine h.goOn hTask ?_ rfl rfl rfl rfl
    simp [Station.names, taskAt, h.handle_of_nil hDns]
  | httpDown =>
    obtain ⟨-, rfl⟩ : s.HttpDone ∧ s.tearDown luck t = s' := by simpa [hPc] using hStep
    obtain ⟨_, _, _, _, _, hEq, -⟩ := s.tearDown_eq luck t
    rw [hEq]
    exact h.goOn hTask rfl rfl rfl rfl rfl
  | leaving ok waited =>
    simp only [hPc] at hStep
    split at hStep
    · obtain rfl := Option.some.inj hStep
      rcases join_cases { s with expected := false } luck t with ⟨_, -, -, hEq, -⟩ | ⟨-, _, _, hEq⟩
      all_goals rw [hEq]
      all_goals exact h.goOn hTask rfl rfl rfl rfl rfl
    · obtain rfl := Option.some.inj hStep
      obtain ⟨_, _, hEq⟩ := giveUp_eq { s with expected := false } luck t
      rw [hEq]
      exact h.goOn hTask rfl rfl rfl rfl rfl
  | waiting =>
    simp only [hPc] at hStep
    split at hStep
    · obtain rfl := Option.some.inj hStep
      exact (h.concluded hTask).1
    · split at hStep
      · obtain rfl := Option.some.inj hStep
        obtain ⟨_, _, hEq⟩ := s.giveUp_eq luck t
        rw [hEq]
        exact h.goOn hTask rfl rfl rfl rfl rfl
      · contradiction
  | finishHttp =>
    have hSock : s.dnsSock = none := by simpa [TidyTask, hPc] using hTidy
    obtain ⟨-, rfl⟩ : s.HttpDone ∧ { s with httpd := false }.taskAt t .finishDns = s' := by
      simpa [hPc, takeDnsSock, hSock] using hStep
    exact h.goOn hTask rfl rfl rfl rfl rfl
  | finishDns =>
    have hDns : s.dns = [] := by simpa [TidyTask, hPc] using hTidy
    simp only [hPc, Option.some.injEq] at hStep
    rw [← hStep]
    refine h.gone ?_ hDns (by simp)
    simp [Station.names, h.handle_of_nil hDns]

theorem SessionInv.dns_turn (h : SessionInv s) {n : Nat} {t : DnsTask} (hGet : s.dns[n]? = some t)
    (hTidy : t.sock = none → luck.socket = true ∧ luck.bind = true)
    (hStep : s.dnsTurn luck n t = some s') : SessionInv s' := by
  -- it is the only one
  obtain ⟨hNil, -⟩ | ⟨u, hOne, -⟩ := h.names.one
  · have hNil : s.dns = [] := hNil
    simp [hNil] at hGet
  obtain ⟨rfl, rfl⟩ : n = 0 ∧ u = t := by
    have hOne : s.dns = [u] := hOne
    rw [hOne] at hGet
    cases n with
    | zero => exact ⟨rfl, by simpa using hGet⟩
    | succ n => simp at hGet
  have hDns : s.dns = [u] := hOne
  unfold dnsTurn at hStep
  cases hSock : u.sock with
  | none =>
    obtain ⟨hSocket, hBind⟩ := hTidy hSock
    simp only [hSock, hSocket, hBind, Bool.not_true, Bool.false_eq_true, if_false, Option.some.injEq] at hStep
    rw [← hStep]
    have hOpened := h.names.openSock hDns hSock
    refine ⟨?_, h.task, ?_, ?_⟩
    · simpa [Station.names, hDns] using hOpened
    · intro hRunning hTask hUi
      exact absurd (h.ended hRunning hTask hUi) (by simp [hDns])
    · intro hFailing
      exact absurd (h.failing hFailing) (by simp [hDns])
  | some k =>
    have hExit := h.names.exit hDns hSock
    simp only [hSock] at hStep
    split at hStep
    · contradiction
    · obtain rfl := Option.some.inj hStep
      have hNil : s.dns.eraseIdx 0 = [] := by simp [hDns]
      refine ⟨?_, h.task, fun _ _ _ => hNil, fun _ => hNil⟩
      simpa [Station.names, hDns] using hExit

/-! ## Every run -/

theorem SessionInv.step (h : SessionInv s) {a : Action} (hStep : s.step a = some s')
    (hTidy : s.Tidy a) : SessionInv s' := by
  cases a with
  | start luck =>
    obtain ⟨hUi, rfl⟩ := step_start hStep
    exact (h.start hUi hTidy).1
  | stop =>
    obtain ⟨-, rfl⟩ := step_stop hStep
    unfold wifiProvisionStop
    split
    · exact h.uiOn rfl rfl rfl (by rintro ⟨⟩) (by simp)
    · exact h
  | connect ssid password luck =>
    obtain ⟨-, rfl⟩ := step_connect hStep
    exact h.connect ssid password
  | ui luck => exact h.ui hTidy hStep
  | httpScan luck =>
    obtain ⟨-, rfl⟩ := step_httpScan hStep
    obtain ⟨_, _, hEq, -⟩ := s.httpHandleScan_eq luck
    rw [hEq]
    exact h.of_same rfl rfl rfl rfl rfl
  | httpConnect ssid password luck =>
    obtain ⟨-, rfl⟩ := step_httpConnect hStep
    exact h.httpConnect ssid password
  | http luck =>
    obtain ⟨_, _, -, rfl, -⟩ := httpTurn_eq hStep
    exact h.of_same rfl rfl rfl rfl rfl
  | task luck =>
    obtain ⟨t, hTask, hTurn⟩ := step_task hStep
    exact h.task_turn hTask (hTidy t hTask) hTurn
  | dns n luck =>
    obtain ⟨t, hGet, hTurn⟩ := step_dns hStep
    exact h.dns_turn hGet (hTidy t hGet) hTurn
  | wlanScan luck =>
    obtain ⟨-, rfl⟩ := step_wlanScan hStep
    obtain ⟨_, _, _, hEq, -⟩ := s.wlanScanStart_eq luck
    rw [hEq]
    exact h.of_same rfl rfl rfl rfl rfl
  | wlan luck =>
    obtain ⟨_, rfl, -⟩ := wlanScanTurn_eq hStep
    exact h.of_same rfl rfl rfl rfl rfl
  | joined =>
    obtain ⟨_, -, rfl⟩ := joined_eq hStep
    exact h.of_same rfl rfl rfl rfl rfl
  | addressed =>
    obtain ⟨_, -, rfl⟩ := addressed_eq hStep
    exact h.of_same rfl rfl rfl rfl rfl
  | lost =>
    obtain ⟨_, -, rfl⟩ := lost_eq hStep
    exact h.of_same rfl rfl rfl rfl rfl
  | deliver luck =>
    obtain ⟨_, _, _, _, _, _, _, _, rfl⟩ := deliver_eq hStep
    exact h.of_same rfl rfl rfl rfl rfl
  | timer luck =>
    obtain ⟨-, _, rfl, -⟩ := timer_eq hStep
    exact h.of_same rfl rfl rfl rfl rfl

theorem SessionInv.lifecycle (h : SessionInv s) {a : Action} (hStep : s.step a = some s')
    (hTidy : s.Tidy a) : s.Lifecycle a s' where
  up luck hStart hOk := by
    subst hStart
    obtain ⟨hUi, rfl⟩ := step_start hStep
    exact (h.start hUi hTidy).2 hOk
  own _ _ t hTask hOther := absurd (h.task t hTask) hOther
  closedOnce := (h.step hStep hTidy).names.nodup
  closed := (h.step hStep hTidy).names.closed
  handle := (h.step hStep hTidy).names.handle_iff

theorem sessionInv_boot (config : Credentials) (nvsSsid nvsPassword : Option Bytes) :
    SessionInv (boot config nvsSsid nvsPassword) where
  names := by
    refine ⟨.inl ⟨rfl, rfl, rfl⟩, List.nodup_nil, by rintro _ ⟨⟩, by rintro _ ⟨⟩, fun k hPos hLe => ?_⟩
    exact absurd (hPos.trans_le hLe) (Nat.lt_irrefl 0)
  task := by rintro _ ⟨⟩
  ended _ _ _ := rfl
  failing _ := rfl

/-- **Sessions are kept apart**, and each name server closes its socket once, while the
steps are tidy. -/
theorem lifecycle_along (config : Credentials) (nvsSsid nvsPassword : Option Bytes)
    (as : List Action)
    (h : Along step (fun s a _ => s.Tidy a) (boot config nvsSsid nvsPassword) as) :
    Along step Lifecycle (boot config nvsSsid nvsPassword) as :=
  Along.of_invariant
    (fun _ _ _ hInv hStep hTidy => ⟨hInv.step hStep hTidy, hInv.lifecycle hStep hTidy⟩)
    (sessionInv_boot config nvsSsid nvsPassword) h

/-! ## A portal is opened and closed -/

instance (s : Station) : Decidable s.PortalUp :=
  decidable_of_iff
    (s.mode = .apsta ∧ s.httpd = true ∧ ∃ t ∈ s.dns, ∀ k ∈ t.sock, k ∉ s.closes)
    ⟨fun ⟨h₁, h₂, h₃⟩ => ⟨h₁, h₂, h₃⟩, fun h => ⟨h.1, h.2, h.3⟩⟩

instance (s : Station) : ∀ pc, Decidable (s.TidyUi pc)
  | .stopHttp | .finishHttp => inferInstanceAs (Decidable (s.dnsSock = none))
  | .stopDns | .finishDns => inferInstanceAs (Decidable (s.dns = []))
  | .idle | .failDns | .failHttp => .isTrue trivial

instance (s : Station) : ∀ pc, Decidable (s.TidyTask pc)
  | .greeting | .finishHttp => inferInstanceAs (Decidable (s.dnsSock = none))
  | .dnsDown | .finishDns => inferInstanceAs (Decidable (s.dns = []))
  | .httpDown | .leaving _ _ | .waiting => .isTrue trivial

instance (s : Station) : ∀ a, Decidable (s.Tidy a)
  | .start _ => inferInstanceAs (Decidable (if s.running then s.PortalUp else s.task = none))
  | .ui _ => inferInstanceAs (Decidable (s.TidyUi s.ui))
  | .task _ => inferInstanceAs (Decidable (∀ t ∈ s.task, s.TidyTask t.pc))
  | .dns n luck =>
    inferInstanceAs (Decidable (∀ t ∈ s.dns[n]?, t.sock = none → luck.socket = true ∧ luck.bind = true))
  | .stop | .connect _ _ _ | .httpScan _ | .httpConnect _ _ _ | .http _ | .wlanScan _ | .wlan _
  | .joined | .addressed | .lost | .deliver _ | .timer _ => .isTrue trivial

/-- A portal whose name server has its socket. -/
def openedPortal : List Action := goOnline ++ [.start allWell, .dns 0 allWell]

/-- The name server ends before the portal waits for it, and another network is chosen. -/
theorem lifecycle_along_of_portal :
    Along step Lifecycle bootedAtHome
      (openedPortal ++ [.stop, .dns 0 allWell, .ui allWell, .ui allWell] ++ choose (ascii "cafe")) :=
  lifecycle_along _ _ _ _ (by decide +kernel)

/-- The portal closes the socket of its name server, which then closes it too. -/
theorem dns_closed_twice :
    ¬∀ (config : Credentials) (nvsSsid nvsPassword : Option Bytes) (as : List Action),
      Along step Lifecycle (boot config nvsSsid nvsPassword) as := by
  intro hAll
  obtain ⟨s, s', hRun, hStep, hTwice⟩ := exists_last_of_any
    (show (run step bootedAtHome (openedPortal ++ [.stop, .ui allWell])).any
      (fun s => (s.step (.dns 0 allWell)).any fun s' => decide (s'.closes = [1, 1])) = true by
      decide +kernel)
  have hOnce : s'.closes.Nodup := ((hAll _ _ _ _).last hRun hStep).closedOnce
  rw [of_decide_eq_true hTwice] at hOnce
  exact absurd hOnce (by decide)

end Station

end EspMiplay.Wifi
