import EspMiplay.Dlna.PlayerSteps

/-!
# What is playing

The identity of the track is kept twice: control points are told `s_uri` and
`s_metadata` of `custom_dlna.c`, the player has its own URI and displays title, artist
and duration. Both begin with SetAVTransportURI, and `cb_next` takes both from one
track to the next.

Beside the player runs what was delivered with the current URI and with the next one.

## Results

* `NowInv.step`    — both agree after every step that meets `Identified`.
* `now_along`      — the same along every run.
* `rejected_video` — a video is rejected by the player, but not by the UPnP layer.
-/

namespace EspMiplay.Dlna

open Transition
open EspMiplay.Miplay (Bytes peek ascii)

namespace Player

variable (p : Player)

/-- Title, artist and duration are those of the metadata, or there are none. -/
structure ShowsTexts (metadata : Bytes) : Prop where
  title : p.curTitle = [] ∨ p.curTitle = decoded 128 (extractTexts metadata).title
  artist : p.curArtist = [] ∨ p.curArtist = decoded 128 (extractTexts metadata).artist
  duration : p.durCacheSec = 0 ∨ (extractTexts metadata).duration = some p.durCacheSec

instance (metadata : Bytes) : Decidable (p.ShowsTexts metadata) :=
  decidable_of_iff
    ((p.curTitle = [] ∨ p.curTitle = decoded 128 (extractTexts metadata).title) ∧
      (p.curArtist = [] ∨ p.curArtist = decoded 128 (extractTexts metadata).artist) ∧
      (p.durCacheSec = 0 ∨ (extractTexts metadata).duration = some p.durCacheSec))
    ⟨fun ⟨h₁, h₂, h₃⟩ => ⟨h₁, h₂, h₃⟩, fun h => ⟨h.1, h.2, h.3⟩⟩

/-- What a control point and the display are told of the track. -/
def identity : Option Bytes × Bytes × Bytes × Bytes × Bytes × Int :=
  (p.trackUri, p.uri, p.metadata, p.curTitle, p.curArtist, p.durCacheSec)

/-- The next track starts at the first attempt, and what is displayed is right for it. -/
def Promotable (luck : Luck) : Prop :=
  (p.nextUri.isSome → p.canRun luck) ∧ p.ShowsTexts (p.nextMetadata.getD [])

instance (luck : Luck) : Decidable (p.Promotable luck) := inferInstanceAs (Decidable (_ ∧ _))

/-- A promotion starts its track at once, or finds its metadata told already when it
does so later; a wait for a next URI does not end while there is a current one. -/
def IdentifiedWake (luck : Luck) : Option (Task × Sleep) → Prop
  | some (_, .promote) => p.Promotable luck
  | some (_, .waitNext generation trackSeq waited) =>
    (p.hasNext → p.Promotable luck) ∧ (p.WaitsOut generation trackSeq waited → p.trackUri = none)
  | some (_, .retry _ _ (.next metadata)) => p.metadata = metadata.getD []
  | _ => True

/-- A URI comes with its metadata, or there were none before, and is no video. -/
def Identified : PlayerAction → Prop
  | .soap (.setUri uri metadata) _ =>
    peek uri ≠ 0 → isVideoUri uri = false ∧ (metadata.isSome ∨ p.metadata = [])
  | .wake n luck => p.IdentifiedWake luck p.sleepers[n]?
  | _ => True

end Player

/-- The player, and the metadata that were delivered with its URIs. -/
structure NowPlaying where
  player : Player
  delivered : Bytes
  deliveredNext : Bytes
  deriving DecidableEq

namespace NowPlaying

variable (n : NowPlaying) (p' : Player)

/-- Without a URI nothing was delivered with it, and a next URI that has been promoted
brings its own metadata. -/
def moveOn : NowPlaying where
  player := p'
  delivered :=
    if p'.trackUri = none then []
    else if p'.promoted = n.player.promoted then n.delivered
    else n.deliveredNext
  deliveredNext := n.deliveredNext

def follow : PlayerAction → NowPlaying
  | .soap (.setUri uri metadata) _ =>
    { n with
      player := p'
      delivered :=
        if peek uri ≠ 0 ∧ isVideoUri uri = false then metadata.getD [] else n.delivered }
  | .soap (.setNextUri _ metadata) _ => { n with player := p', deliveredNext := metadata }
  | _ => n.moveOn p'

def step (a : PlayerAction) : Option NowPlaying :=
  (n.player.step a).map fun p' => n.follow p' a

/-- The UPnP layer and the player agree about the track. -/
structure Agrees : Prop where
  uri : n.player.uri = n.player.trackUri.getD []
  metadata : n.player.metadata = n.delivered
  texts : n.player.ShowsTexts n.delivered

/-- They agree after the step, and what was rejected has changed nothing. -/
def Law (n : NowPlaying) (a : PlayerAction) (n' : NowPlaying) : Prop :=
  n'.Agrees ∧
    match a with
    | .soap (.setUri uri _) _ => isVideoUri uri → n'.player.identity = n.player.identity
    | _ => True

def boot (nowUs : Int) : NowPlaying := ⟨.boot nowUs, [], []⟩

end NowPlaying

/-- They agree, and the next metadata belong to the next URI. -/
structure NowInv (n : NowPlaying) : Prop where
  agrees : n.Agrees
  unset : n.player.trackUri = none → n.delivered = []
  next : n.player.nextMetadata = n.player.nextUri.map fun _ => n.deliveredNext

namespace NowInv

open Player NowPlaying

variable {n : NowPlaying} {p p' : Player} {luck : Luck} {task : Task}

/-! ## What the handlers tell -/

theorem content_eq (h : p'.content = p.content) :
    p'.trackUri = p.trackUri ∧ p'.nextUri = p.nextUri ∧ p'.nextMetadata = p.nextMetadata ∧
      p'.uri = p.uri ∧ p'.metadata = p.metadata ∧ p'.curTitle = p.curTitle ∧
      p'.curArtist = p.curArtist ∧ p'.durCacheSec = p.durCacheSec ∧ p'.nexts = p.nexts ∧
      p'.promoted = p.promoted := by
  simpa [content] using h

theorem showsTexts_of_eq {metadata : Bytes} (h : p.ShowsTexts metadata)
    (hTitle : p'.curTitle = p.curTitle) (hArtist : p'.curArtist = p.curArtist)
    (hDuration : p'.durCacheSec = p.durCacheSec) : p'.ShowsTexts metadata :=
  ⟨hTitle ▸ h.title, hArtist ▸ h.artist, hDuration ▸ h.duration⟩

/-- With no texts displayed, `cb_set_metadata` displays those of the metadata. -/
theorem showsTexts_cbSetMetadata (metadata : Bytes) (hTitle : p.curTitle = [])
    (hArtist : p.curArtist = []) (hDuration : p.durCacheSec = 0) :
    (p.cbSetMetadata metadata).ShowsTexts metadata := by
  have hDur : (extractTexts metadata).duration.getD p.durCacheSec = 0 ∨
      (extractTexts metadata).duration =
        some ((extractTexts metadata).duration.getD p.durCacheSec) := by
    cases (extractTexts metadata).duration with
    | none => exact .inl hDuration
    | some total => exact .inr rfl
  simp only [cbSetMetadata]
  split_ifs
  all_goals first
    | exact ⟨.inr rfl, .inr rfl, hDur⟩
    | exact ⟨.inl hTitle, .inl hArtist, hDur⟩

theorem doPlay_of_runs {uri : Bytes} {seekSec : Int} {after : After} (hRuns : p.canRun luck) :
    p.doPlay task luck (some uri) seekSec after =
      (({ p with generation := p.generation + 1, nearEndCount := 0 }.grace 8000000).played uri
        seekSec).afterPlay after := if_pos hRuns

variable (task) in
theorem content_promoteNext_of_some {uri : Bytes} (hNext : p.nextUri = some uri)
    (hRuns : p.canRun luck) :
    (p.promoteNext task luck).content =
      { p.content with
        trackUri := some uri
        nextUri := none
        nextMetadata := none
        uri := uri
        metadata := p.nextMetadata.getD []
        promoted := p.nexts :: p.promoted } := by
  have hStarts : p.withNext.doPlay task luck (some uri) 0 (.next p.nextMetadata) = _ :=
    doPlay_of_runs hRuns
  rw [promoteNext_eq, hNext, hStarts]
  simp [afterPlay, updateUri, played, content, withNext, setState, grace, hNext]

variable (task luck) in
theorem content_promoteNext_of_none (hNext : p.nextUri = none) :
    (p.promoteNext task luck).content =
      { p.content with
        trackUri := none
        nextUri := none
        nextMetadata := none
        uri := []
        metadata := p.nextMetadata.getD [] } := by
  rw [promoteNext_eq, hNext]
  simp [doPlay, afterPlay, updateUri, content, withNext, hNext]

/-! ## The invariant -/

/-- The rest of the player does not matter. -/
theorem congr (h : NowInv n) (hContent : p'.content = n.player.content) :
    NowInv { n with player := p' } := by
  obtain ⟨hTrack, hNext, hNextMeta, hUri, hMeta, hTitle, hArtist, hDur, -, -⟩ := content_eq hContent
  refine ⟨⟨?_, ?_, showsTexts_of_eq h.agrees.texts hTitle hArtist hDur⟩, ?_, ?_⟩
  · rw [hUri, hTrack]
    exact h.agrees.uri
  · rw [hMeta]
    exact h.agrees.metadata
  · rw [hTrack]
    exact h.unset
  · rw [hNextMeta, hNext]
    exact h.next

theorem moveOn (h : NowInv n) (hContent : p'.content = n.player.content) :
    NowInv (n.moveOn p') := by
  obtain ⟨hTrack, -, -, -, -, -, -, -, -, hPromoted⟩ := content_eq hContent
  have hEq : n.moveOn p' = { n with player := p' } := by
    unfold NowPlaying.moveOn
    by_cases hNone : n.player.trackUri = none
    · rw [if_pos (hTrack.trans hNone), h.unset hNone]
    · rw [if_neg (hTrack ▸ hNone), if_pos hPromoted]
  rw [hEq]
  exact h.congr hContent

/-- SetAVTransportURI tells both of the new track. -/
theorem setAvTransportUri (h : NowInv n) {uri : Bytes} {metadata : Option Bytes}
    (hVideo : isVideoUri uri = false) (hMeta : metadata.isSome ∨ n.player.metadata = []) :
    NowInv
      { n with
        player := n.player.setAvTransportUri uri metadata
        delivered := metadata.getD [] } := by
  have hBuffer : metadata.getD n.player.metadata = metadata.getD [] := by
    cases metadata with
    | none => exact hMeta.resolve_left (by simp)
    | some metadata => rfl
  have hTexts : ((n.player.withTrack uri (metadata.getD [])).cbSetMetadata
      (metadata.getD [])).ShowsTexts (metadata.getD []) :=
    showsTexts_cbSetMetadata _ rfl rfl rfl
  rw [setAvTransportUri_of_track n.player metadata hVideo, hBuffer]
  obtain ⟨_, _, _, _, _, _, hEq⟩ :=
    (n.player.withTrack uri (metadata.getD [])).cbSetMetadata_eq (metadata.getD [])
  rw [hEq] at hTexts ⊢
  exact ⟨⟨rfl, rfl, hTexts⟩, by rintro ⟨⟩, h.next⟩

theorem setNextUri (h : NowInv n) (uri metadata : Bytes) :
    NowInv { n with player := n.player.cbSetNextUri uri metadata, deliveredNext := metadata } :=
  ⟨⟨h.agrees.uri, h.agrees.metadata,
    ⟨h.agrees.texts.title, h.agrees.texts.artist, h.agrees.texts.duration⟩⟩, h.unset, rfl⟩

theorem stop (h : NowInv n) : NowInv (n.moveOn (n.player.cbStop luck)) := by
  have hStopped : NowInv (n.moveOn ((n.player.stopping.pipeStop luck).setState .stopped)) :=
    h.moveOn (by rw [content_setState, content_pipeStop, content_stopping])
  exact ⟨⟨hStopped.agrees.uri, hStopped.agrees.metadata,
    ⟨hStopped.agrees.texts.title, hStopped.agrees.texts.artist, hStopped.agrees.texts.duration⟩⟩,
    hStopped.unset, rfl⟩

/-- The next track becomes the current one, in both. -/
theorem promoteNext (h : NowInv n) (hContent : p.content = n.player.content)
    (hOk : p.Promotable luck) : NowInv (n.moveOn (p.promoteNext task luck)) := by
  obtain ⟨-, hNext, hNextMeta, -, -, hTitle, hArtist, hDur, -, hPromoted⟩ := content_eq hContent
  have hMeta : p.nextMetadata = p.nextUri.map fun _ => n.deliveredNext := by
    rw [hNext, hNextMeta]
    exact h.next
  cases hUri : p.nextUri with
  | none =>
    have hAfter := content_promoteNext_of_none luck task hUri
    simp only [hMeta, hUri, Option.map_none, Option.getD_none, content, Content.mk.injEq] at hAfter
    obtain ⟨hTrack, hNext', hNextMeta', hUri', hMeta', hTitle', hArtist', hDur', -, -⟩ := hAfter
    have hDelivered : (n.moveOn (p.promoteNext task luck)).delivered = [] := if_pos hTrack
    have hTexts : (p.promoteNext task luck).ShowsTexts [] := by
      have hShown := hOk.2
      rw [hMeta, hUri] at hShown
      exact showsTexts_of_eq hShown hTitle' hArtist' hDur'
    refine ⟨⟨?_, ?_, ?_⟩, fun _ => hDelivered, ?_⟩
    · exact hUri'.trans (by rw [NowPlaying.moveOn, hTrack]; rfl)
    · exact hMeta'.trans hDelivered.symm
    · rw [hDelivered]
      exact hTexts
    · show (p.promoteNext task luck).nextMetadata = (p.promoteNext task luck).nextUri.map _
      rw [hNextMeta', hNext']
      rfl
  | some uri =>
    have hAfter := content_promoteNext_of_some task hUri (hOk.1 (by simp [hUri]))
    simp only [hMeta, hUri, Option.map_some, Option.getD_some, content, Content.mk.injEq] at hAfter
    obtain ⟨hTrack, hNext', hNextMeta', hUri', hMeta', hTitle', hArtist', hDur', -, hPromoted'⟩ :=
      hAfter
    have hDelivered : (n.moveOn (p.promoteNext task luck)).delivered = n.deliveredNext := by
      have hNew : (p.promoteNext task luck).promoted ≠ n.player.promoted := by
        rw [hPromoted', hPromoted]
        exact List.cons_ne_self _ _
      rw [NowPlaying.moveOn, if_neg (by simp [hTrack]), if_neg hNew]
    have hTexts : (p.promoteNext task luck).ShowsTexts n.deliveredNext := by
      have hShown := hOk.2
      rw [hMeta, hUri] at hShown
      exact showsTexts_of_eq hShown hTitle' hArtist' hDur'
    refine ⟨⟨?_, ?_, ?_⟩, ?_, ?_⟩
    · exact hUri'.trans (by rw [NowPlaying.moveOn, hTrack]; rfl)
    · exact hMeta'.trans hDelivered.symm
    · rw [hDelivered]
      exact hTexts
    · intro hNone
      exact absurd (hTrack.symm.trans hNone) (by simp)
    · show (p.promoteNext task luck).nextMetadata = (p.promoteNext task luck).nextUri.map _
      rw [hNextMeta', hNext']
      rfl

/-- Nothing followed, and there was no track before. -/
theorem timedOut (h : NowInv n) (hContent : p.content = n.player.content)
    (hTrack : p.trackUri = none) : NowInv (n.moveOn p.timedOut) := by
  obtain ⟨hTrack', -, -, hUri, hMeta, -, -, -, -, -⟩ := content_eq hContent
  have hNone : n.player.trackUri = none := hTrack' ▸ hTrack
  have hUri' : p.uri = [] := by rw [hUri, h.agrees.uri, hNone]; rfl
  have hMeta' : p.metadata = [] := by rw [hMeta, h.agrees.metadata, h.unset hNone]
  refine h.moveOn (Eq.trans ?_ hContent)
  simp [Player.timedOut, updateUri, setState, content, hUri', hMeta']

theorem request (h : NowInv n) {request : AvtRequest}
    (hOk : n.player.Identified (.soap request luck)) :
    NowInv (n.follow (n.player.request luck request) (.soap request luck)) := by
  cases request with
  | setUri uri metadata =>
    by_cases hUri : peek uri ≠ 0
    · obtain ⟨hVideo, hMeta⟩ := hOk hUri
      rw [request_setUri hUri, follow, if_pos ⟨hUri, hVideo⟩]
      exact h.setAvTransportUri hVideo hMeta
    · rw [request_setUri_empty hUri, follow, if_neg (fun hAnd => hUri hAnd.1)]
      exact h
  | setNextUri uri metadata => exact h.setNextUri uri metadata
  | play => exact h.moveOn (content_cbPlay n.player luck .soap)
  | pause => exact h.moveOn (content_cbPause n.player)
  | stop => exact h.stop
  | seek seconds => exact h.moveOn (content_cbSeek n.player .soap seconds)
  | next => exact h.moveOn (content_cbNext n.player luck .soap)
  | previous => exact h.moveOn (content_cbPrevious n.player luck .soap)

theorem retryPlay (h : NowInv n) (hContent : p.content = n.player.content) (uri : Bytes)
    (seekSec : Int) {after : After}
    (hOk : ∀ metadata, after = .next metadata → n.player.metadata = metadata.getD []) :
    NowInv (n.moveOn (p.retryPlay luck uri seekSec after)) := by
  refine h.moveOn (Eq.trans ?_ hContent)
  cases after with
  | next metadata =>
    obtain ⟨hTrack, -, -, hUri, hMeta, -, -, -, -, -⟩ := content_eq hContent
    have hUri' : p.uri = p.trackUri.getD [] := by
      rw [hUri, hTrack]
      exact h.agrees.uri
    have hMeta' : p.metadata = metadata.getD [] := hMeta.trans (hOk metadata rfl)
    unfold Player.retryPlay
    split_ifs
    · simp [afterPlay, updateUri, played, setState, grace, content, hUri', hMeta']
    · simp [afterPlay, updateUri, setState, content, hUri', hMeta']
  | _ => exact content_retryPlay _ _ _ _ (by rintro _ ⟨⟩)

theorem wake (h : NowInv n) {i : Nat} {s : Sleep}
    (hGet : n.player.sleepers[i]? = some (task, s))
    (hOk : n.player.IdentifiedWake luck n.player.sleepers[i]?) :
    NowInv (n.moveOn ((n.player.without i).wake luck task s)) := by
  have hRest : (n.player.without i).content = n.player.content := rfl
  rw [hGet] at hOk
  cases s with
  | switch paused =>
    exact h.moveOn ((content_doPlay _ _ _ _ _ (by rintro _ ⟨⟩)).trans hRest)
  | retry uri seekSec after =>
    refine h.retryPlay hRest uri seekSec ?_
    rintro metadata rfl
    exact hOk
  | seek seconds => exact h.moveOn rfl
  | seekDone => exact h.moveOn (content_pipeResume _)
  | notify generation track => exact h.moveOn (content_delayedStopNotify _ _ _ _)
  | deferred seconds => exact h.moveOn (content_deferredSeek _ _)
  | deferredPaused seconds => exact h.moveOn rfl
  | deferredDone seconds => exact h.moveOn (content_pipeResume (n.player.without i))
  | promote => exact h.promoteNext hRest ⟨hOk.1, hOk.2.title, hOk.2.artist, hOk.2.duration⟩
  | noNext => exact h.moveOn rfl
  | waitNext generation trackSeq waited =>
    rcases (n.player.without i).waitNext_cases luck task generation trackSeq waited with
      ⟨hNext, hEq⟩ | hEq | ⟨-, hEq⟩ | ⟨hOut, hEq⟩
    · obtain ⟨hRuns, hTexts⟩ := hOk.1 hNext
      rw [Player.wake, hEq]
      exact h.promoteNext hRest ⟨hRuns, hTexts.title, hTexts.artist, hTexts.duration⟩
    · rw [Player.wake, hEq]
      exact h.moveOn hRest
    · rw [Player.wake, hEq]
      exact h.moveOn hRest
    · rw [Player.wake, hEq]
      exact h.timedOut hRest (hOk.2 hOut)
  | previous => exact h.moveOn ((content_doPlay _ _ _ _ _ (by rintro _ ⟨⟩)).trans hRest)

theorem step {n' : NowPlaying} (h : NowInv n) {a : PlayerAction} (hStep : n.step a = some n')
    (hOk : n.player.Identified a) : NowInv n' := by
  obtain ⟨p', hPlayer, rfl⟩ := Option.map_eq_some_iff.1 hStep
  cases a with
  | soap request luck => exact step_soap hPlayer ▸ h.request hOk
  | toggle luck => exact step_toggle hPlayer ▸ h.moveOn (content_cbPlayToggle n.player luck .btnCtrl)
  | press next => exact Option.some.inj hPlayer ▸ h.moveOn rfl
  | track luck =>
    obtain ⟨rest, rfl | rfl⟩ := step_track hPlayer
    · exact h.moveOn (content_cbNext _ luck .btnTrack)
    · exact h.moveOn (content_cbPrevious _ luck .btnTrack)
  | wake i luck =>
    obtain ⟨task, s, hGet, rfl⟩ := step_wake hPlayer
    exact h.wake hGet hOk
  | pipe event => exact h.moveOn (content_pipeEvent hPlayer)
  | wifi up =>
    cases up with
    | true => exact Option.some.inj hPlayer ▸ h.moveOn (content_wifiRestored n.player)
    | false => exact Option.some.inj hPlayer ▸ h.moveOn (content_wifiLost n.player)
  | ui luck => exact Option.some.inj hPlayer ▸ h.moveOn (content_uiTick n.player luck)
  | tick us => exact Option.some.inj hPlayer ▸ h.moveOn rfl

end NowInv

namespace NowPlaying

open Player

/-- Who is told of no video has nothing to reject. -/
theorem law_of_identified {n n' : NowPlaying} {a : PlayerAction} (h : n'.Agrees)
    (hStep : n.step a = some n') (hOk : n.player.Identified a) : Law n a n' := by
  refine ⟨h, ?_⟩
  cases a with
  | soap request luck =>
    cases request with
    | setUri uri metadata =>
      intro hVideo
      by_cases hUri : peek uri ≠ 0
      · simp [(hOk hUri).1] at hVideo
      · obtain ⟨p', hPlayer, rfl⟩ := Option.map_eq_some_iff.1 hStep
        obtain rfl := step_soap hPlayer
        rw [request_setUri_empty hUri]
        rfl
    | _ => trivial
  | _ => trivial

/-- **Both agree** along every run in which the tracks are identified. -/
theorem now_along (nowUs : Int) (as : List PlayerAction)
    (h : Along step (fun n a _ => n.player.Identified a) (boot nowUs) as) :
    (boot nowUs).Agrees ∧ Along step Law (boot nowUs) as := by
  have hBoot : NowInv (boot nowUs) := ⟨⟨rfl, rfl, .inl rfl, .inl rfl, .inl rfl⟩, fun _ => rfl, rfl⟩
  refine ⟨hBoot.agrees, Along.of_invariant (fun n a n' hInv hStep hOk => ?_) hBoot h⟩
  have hAfter := hInv.step hStep hOk
  exact ⟨hAfter, law_of_identified hAfter.agrees hStep hOk⟩

/-! ## A video -/

instance (p : Player) (luck : Luck) : ∀ s, Decidable (p.IdentifiedWake luck s)
  | some (_, .promote) => inferInstanceAs (Decidable (p.Promotable luck))
  | some (_, .waitNext _ _ _) => inferInstanceAs (Decidable ((_ → _) ∧ (_ → _)))
  | some (_, .retry _ _ (.next _)) => inferInstanceAs (Decidable (_ = _))
  | none | some (_, .retry _ _ (.switched _)) | some (_, .retry _ _ .fresh)
  | some (_, .retry _ _ .previous) | some (_, .switch _) | some (_, .seek _)
  | some (_, .seekDone) | some (_, .notify _ _) | some (_, .deferred _)
  | some (_, .deferredPaused _) | some (_, .deferredDone _) | some (_, .noNext)
  | some (_, .previous) => .isTrue trivial

instance (p : Player) : ∀ a, Decidable (p.Identified a)
  | .soap (.setUri _ _) _ => inferInstanceAs (Decidable (_ → _ ∧ _))
  | .wake i luck => inferInstanceAs (Decidable (p.IdentifiedWake luck p.sleepers[i]?))
  | .soap (.setNextUri _ _) _ | .soap .play _ | .soap .pause _ | .soap .stop _
  | .soap (.seek _) _ | .soap .next _ | .soap .previous _ | .toggle _ | .press _ | .track _
  | .pipe _ | .wifi _ | .ui _ | .tick _ => .isTrue trivial

/-- A track with a title, one without, and Next. -/
theorem now_along_of_next :
    Along step Law (boot 1)
      [.soap (.setUri (ascii "http://a/1") (some (ascii "<dc:title>Song</dc:title>"))) ⟨true, false⟩,
        .soap .play ⟨true, false⟩, .pipe .running, .tick 5000,
        .soap (.setUri (ascii "http://a/2") (some [])) ⟨true, false⟩,
        .soap (.setNextUri (ascii "http://a/3") []) ⟨true, false⟩, .soap .next ⟨true, false⟩,
        .tick 300000, .wake 0 ⟨true, false⟩] :=
  (now_along 1 _ (by decide +kernel)).2

/-- The player rejects a video, but control points are told of it. -/
theorem rejected_video : ¬∀ (nowUs : Int) (as : List PlayerAction),
    Along step Law (boot nowUs) as := by
  intro hAll
  obtain ⟨n, n', hRun, hStep, hDiffer⟩ := exists_last_of_any
    (show (run step (boot 1)
        [.soap (.setUri (ascii "http://a/1") (some [])) ⟨true, false⟩]).any
      (fun n =>
        (n.step (.soap (.setUri (ascii "http://a/v.mp4") (some [])) ⟨true, false⟩)).any fun n' =>
          decide (n'.player.uri ≠ n'.player.trackUri.getD [])) = true by decide +kernel)
  exact of_decide_eq_true hDiffer ((hAll 1 _).last hRun hStep).1.uri

end NowPlaying

end EspMiplay.Dlna
