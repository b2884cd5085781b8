import MoonlightPsp.Launch.Connect
import MoonlightPsp.Launch.SessionLaw

/-!
# What a connection does

Over all its attempts, a connection shows the games at most once and launches no other
application than the one that was chosen, and that only where nothing runs or what ran was
stopped.  A session that was launched and could not be set up is cancelled.  The keys of a
session that is set up are those of the last request that had any.
-/

namespace MoonlightPsp.Launch

open Rtsp Config EarlyExit EventLog PastTime

/-! ## What the log tells -/

namespace LaunchEvent

/-- Whether the client is paired. -/
def paired? : LaunchEvent → Option Bool
  | asked (.serverInfo true) reply =>
      match pairVerdict reply with
      | .verified => some true
      | .rejected => some false
      | .unknown => none
  | paired ok => some ok
  | _ => none

/-- What the user selected. -/
def selected? : LaunchEvent → Option ℤ
  | selected appId => some appId
  | _ => none

/-- Whether a session passes for opened by this request; a cancellation ends it. -/
def entered? : LaunchEvent → Option Bool
  | asked (.serverInfo _) reply => some (reply.isOk && currentGame reply.resp < 0)
  | asked .cancel _ => some false
  | asked (.resume _) reply => some reply.isOk
  | asked (.launch _ _) reply => some reply.isOk
  | _ => none

/-- A request that is no cancellation. -/
def isOther : LaunchEvent → Bool
  | asked r _ => r ≠ .cancel
  | _ => false

/-- An attempt of the RTSP session that failed. -/
def isFailure : LaunchEvent → Bool
  | rtsp ret => ret < 0
  | _ => false

/-- A new attempt, or a cancellation. -/
def IsEnd : LaunchEvent → Prop
  | rtsp _ => True
  | asked .cancel _ => True
  | _ => False

end LaunchEvent

variable {l before : List LaunchEvent} {e : LaunchEvent}

/-- The pairing was verified, or made. -/
def Trusted (l : List LaunchEvent) : Prop := ∃ e ∈ l, e.paired? = some true

/-- How often the session that was opened last could not be set up. -/
def rtspFailures (l : List LaunchEvent) : ℕ :=
  countSince LaunchEvent.isOther LaunchEvent.isFailure l

/-- The application of the connection: what was selected, or what was kept from a failure. -/
def application (base : ConnectState) (l : List LaunchEvent) : ℤ :=
  (latest LaunchEvent.selected? l).getD base.retryAppId

/-- Why a request is made, from the events of the connection before it. -/
def Asks (base : ConnectState) (before : List LaunchEvent) : Request → Prop
  | .serverInfo _ => True
  | .resume _ => Trusted before ∧ chosen before = some .resume
  | .cancel =>
      Trusted before ∧ (chosen before = some .quit ∨
        chosen before = some .resume ∧ resumed before = some false ∨ rtspFailures before = 3)
  | .launch mode _ =>
      Trusted before ∧ mode.appId = application base before ∧ 0 ≤ mode.appId ∧
        (hostGame before = some 0 ∨ rest before = some .rested)

/-- Why something is done. -/
def Allowed (base : ConnectState) (before : List LaunchEvent) : LaunchEvent → Prop
  | .asked r reply => Asks base before r ∧ Heard before r reply
  | .waited ms => ms = 6000 → rest before = some .stopped
  | .prompted _ => ∃ game, hostGame before = some game ∧ 0 < game
  | .paired _ => latest LaunchEvent.paired? before ≠ some true
  | .selected _ => Trusted before ∧ latest LaunchEvent.selected? before = none
  | .rtsp _ => latest LaunchEvent.entered? before = some true ∧ rtspFailures before < 3

/-- An RTSP session failed, and nothing was done about it. -/
def Abandoned (l : List LaunchEvent) : Prop :=
  Pending (fun e => e.isFailure = true) LaunchEvent.IsEnd l

/-- The keys are those of the last request that had any, or a session passes for resumed. -/
def Told (s : LaunchState) (l : List LaunchEvent) : Prop :=
  (∃ key, latest LaunchEvent.key? l = some key ∧ Keeps s key) ∨
    ∃ game, hostGame l = some game ∧ game < 0

/-! ## Invariants -/

/-- A connection has added these events. -/
structure Recorded (base s : ConnectState) (l : List LaunchEvent) : Prop where
  log : s.log = base.log ++ l
  allowed : Always (Allowed base) l

/-- An application is kept if it was selected, and only then. -/
def Kept (env : ConnectEnv) (base s : ConnectState) (l : List LaunchEvent) : Prop :=
  match latest LaunchEvent.selected? l with
  | none => s.retryAppId = base.retryAppId ∧ s.retryHost = base.retryHost
  | some appId => 0 ≤ appId ∧ s.retryAppId = appId ∧ s.retryHost = env.sunshineHost.text

/-- Between the steps. -/
structure Connecting (env : ConnectEnv) (base s : ConnectState) (l : List LaunchEvent) :
    Prop extends Recorded base s l where
  done : ¬Abandoned l
  kept : Kept env base s l
  paired : s.isPaired = false → latest LaunchEvent.paired? l ≠ some true

/-- What is over after a failure. -/
structure Failed (env : ConnectEnv) (base : ConnectState) (ret : ℤ) (s : ConnectState)
    (l : List LaunchEvent) : Prop extends Recorded base s l where
  done : ¬Abandoned l
  negative : ret < 0
  again : ret = -3 → Connecting env base s l

/-- Behind the selection. -/
structure Ready (env : ConnectEnv) (base : ConnectState) (appId : ℤ) (s : ConnectState)
    (l : List LaunchEvent) : Prop extends Connecting env base s l where
  application : s.retryAppId = appId
  nonneg : 0 ≤ appId
  trusted : Trusted l
  isPaired : s.isPaired = true

variable {env : ConnectEnv} {base s t : ConnectState} {appId ret : ℤ}

theorem Recorded.snoc (h : Recorded base s l) (he : Allowed base l e) (ht : t.log = s.log ++ [e]) :
    Recorded base t (l ++ [e]) where
  log := by rw [ht, h.log, List.append_assoc]
  allowed := h.allowed.snoc he

theorem Trusted.append (h : Trusted l) (later : List LaunchEvent) : Trusted (l ++ later) := by
  obtain ⟨e, he, htrue⟩ := h
  exact ⟨e, List.mem_append_left later he, htrue⟩

theorem trusted_of_latest (h : latest LaunchEvent.paired? l = some true) : Trusted l := by
  by_contra hnone
  have hall : ∀ e ∈ l.reverse, ¬e.paired? = some true := by
    intro e he htrue
    exact hnone ⟨e, List.mem_reverse.mp he, htrue⟩
  obtain ⟨e, he, htrue⟩ := List.exists_of_findSome?_eq_some h
  exact hall e he htrue

theorem Kept.congr (h : Kept env base s l) {l' : List LaunchEvent}
    (hselected : latest LaunchEvent.selected? l' = latest LaunchEvent.selected? l)
    (happ : t.retryAppId = s.retryAppId) (hhost : t.retryHost = s.retryHost) :
    Kept env base t l' := by
  rw [Kept, hselected, happ, hhost]
  exact h

/-- One event more that is neither a selection nor a failure. -/
theorem Connecting.snoc (h : Connecting env base s l) (he : Allowed base l e)
    (hselected : e.selected? = none) (hfailure : e.isFailure = false)
    (ht : t.log = s.log ++ [e]) (happ : t.retryAppId = s.retryAppId)
    (hhost : t.retryHost = s.retryHost)
    (hpaired : t.isPaired = false → latest LaunchEvent.paired? (l ++ [e]) ≠ some true) :
    Connecting env base t (l ++ [e]) where
  toRecorded := h.toRecorded.snoc he ht
  done := not_pending_append h.done fun d hd => by
    rw [List.mem_singleton.mp hd, hfailure]
    exact Bool.false_ne_true
  kept := h.kept.congr (by rw [latest_snoc, hselected, Option.none_or]) happ hhost
  paired := hpaired

theorem Connecting.wait (h : Connecting env base s l) (ms : ℕ) (hms : ms ≠ 6000) :
    Connecting env base (s.within (wait ms s.toLaunchState)) (l ++ [.waited ms]) := by
  refine h.snoc (e := .waited ms) (absurd · hms) rfl rfl rfl rfl rfl fun hfalse => ?_
  rw [latest_snoc]
  exact h.paired hfalse

theorem Connecting.start (env : ConnectEnv) (base : ConnectState) :
    Connecting env base base [] where
  log := (List.append_nil _).symm
  allowed := always_nil
  done := not_pending_nil
  kept := ⟨rfl, rfl⟩
  paired := fun _ => (Option.some_ne_none true).symm

theorem Connecting.failed (h : Connecting env base s l) (hneg : ret < 0) :
    Failed env base ret s l where
  toRecorded := h.toRecorded
  done := h.done
  negative := hneg
  again := fun _ => h

/-! ## The pairing -/

theorem verifyPairing_spec (h : Connecting env base s l) :
    Ends (fun e => ∃ l', Failed env base e.1 e.2 l')
      (fun s' => ∃ l', Connecting env base s' l' ∧
        (s'.isPaired = true → latest LaunchEvent.paired? l' = some true))
      (verifyPairing env s) := by
  rw [verifyPairing]
  split
  · rename_i hpaired
    have hheard : Heard l (.serverInfo true)
        (ask env.toLaunchEnv (.serverInfo true) [] s.toLaunchState).1 :=
      heard_ask env.toLaunchEnv Bool.noConfusion s.toLaunchState
    rw [ask] at hheard ⊢
    dsimp only at hheard ⊢
    generalize Reply.mk _ _ = reply at hheard ⊢
    have hone : ∀ isPaired : Bool, ∀ host : Text,
        (isPaired = false →
          latest LaunchEvent.paired? (l ++ [.asked (.serverInfo true) reply]) ≠ some true) →
        Connecting env base
          { s with
            log := s.log ++ [.asked (.serverInfo true) reply]
            isPaired := isPaired
            lastPairedHost := host }
          (l ++ [.asked (.serverInfo true) reply]) :=
      fun isPaired host hnot => h.snoc ⟨trivial, hheard⟩ rfl rfl rfl rfl rfl hnot
    split
    · rename_i hverdict
      refine ⟨_, hone s.isPaired s.lastPairedHost ?_, fun _ => ?_⟩
      · intro hfalse
        exact absurd (hpaired.symm.trans hfalse) Bool.noConfusion
      · rw [latest_snoc, LaunchEvent.paired?, hverdict]
        rfl
    · rename_i hverdict
      refine ⟨_, hone false [] fun _ => ?_, fun htrue => absurd htrue Bool.false_ne_true⟩
      rw [latest_snoc, LaunchEvent.paired?, hverdict]
      exact fun htrue => Bool.false_ne_true (Option.some.inj htrue)
    · have hkept := hone s.isPaired s.lastPairedHost fun hfalse =>
        absurd (hpaired.symm.trans hfalse) Bool.noConfusion
      exact ⟨_, hkept.failed (by decide : (-1 : ℤ) < 0)⟩
  · rename_i hpaired
    exact ⟨l, h, fun htrue => absurd htrue hpaired⟩

theorem ensurePaired_spec (h : Connecting env base s l)
    (htrust : s.isPaired = true → latest LaunchEvent.paired? l = some true) :
    Ends (fun e => ∃ l', Failed env base e.1 e.2 l')
      (fun s' => ∃ l', Connecting env base s' l' ∧ s'.isPaired = true ∧ Trusted l')
      (ensurePaired env s) := by
  rw [ensurePaired]
  split
  · rename_i hpaired
    exact ⟨l, h, hpaired, trusted_of_latest (htrust hpaired)⟩
  · rename_i hpaired
    have hallowed := h.paired (Bool.not_eq_true _ ▸ hpaired)
    split
    · refine ⟨l ++ [.paired true], ?_, rfl, trusted_of_latest (by rw [latest_snoc]; rfl)⟩
      refine h.snoc (e := .paired true) hallowed rfl rfl rfl rfl rfl fun hfalse => ?_
      exact absurd hfalse.symm Bool.false_ne_true
    · rename_i isPaired _
      have hfailed : Connecting env base { s.record (.paired false) with isPaired }
          (l ++ [.paired false]) := by
        refine h.snoc (e := .paired false) hallowed rfl rfl rfl rfl rfl fun _ => ?_
        rw [latest_snoc]
        exact fun htrue => Bool.false_ne_true (Option.some.inj htrue)
      exact ⟨_, hfailed.failed (by decide : (-1 : ℤ) < 0)⟩

/-! ## The selection -/

/-- The selection, which leaves what was kept in the past. -/
theorem Connecting.select (h : Connecting env base s l) (htrust : Trusted l)
    (hnone : latest LaunchEvent.selected? l = none) (hlog : t.log = s.log ++ [.selected appId]) :
    Recorded base t (l ++ [.selected appId]) ∧ ¬Abandoned (l ++ [.selected appId]) := by
  refine ⟨h.toRecorded.snoc ⟨htrust, hnone⟩ hlog, not_pending_append h.done fun d hd => ?_⟩
  rw [List.mem_singleton.mp hd]
  exact Bool.false_ne_true

/-- Nothing was selected where nothing is kept for this host. -/
theorem Connecting.selected_none (h : Connecting env base s l)
    (hnot : ¬(0 ≤ s.retryAppId ∧ s.retryHost = env.sunshineHost.text)) :
    latest LaunchEvent.selected? l = none := by
  have hkept := h.kept
  rw [Kept] at hkept
  split at hkept
  · assumption
  · obtain ⟨hpos, happ, hhost⟩ := hkept
    rw [happ] at hnot
    exact absurd ⟨hpos, hhost⟩ hnot

theorem selectApp_spec (h : Connecting env base s l) (hpaired : s.isPaired = true)
    (htrust : Trusted l) :
    Ends (fun e => ∃ l', Failed env base e.1 e.2 l')
      (fun p => ∃ l', Ready env base p.1 p.2 l') (selectApp env s) := by
  rw [selectApp]
  dsimp only
  by_cases hretry : 0 ≤ s.retryAppId ∧ s.retryHost = env.sunshineHost.text
  · obtain ⟨hpos, hhost⟩ := hretry
    have hsame : ¬(0 ≤ s.retryAppId ∧ s.retryHost ≠ env.sunshineHost.text) :=
      fun hne => hne.2 hhost
    rw [if_neg hsame, if_pos hpos]
    exact ⟨l, h, rfl, hpos, htrust, hpaired⟩
  · have hnone := h.selected_none hretry
    generalize hcleared : (if 0 ≤ s.retryAppId ∧ s.retryHost ≠ env.sunshineHost.text then
      networkConnectClearRetryApp s else s) = s'
    have hs' : s'.toLaunchState = s.toLaunchState ∧ ¬0 ≤ s'.retryAppId := by
      subst hcleared
      split
      · exact ⟨rfl, (by decide : ¬(0 : ℤ) ≤ -1)⟩
      · rename_i hkeep
        refine ⟨rfl, fun hpos => hretry ⟨hpos, ?_⟩⟩
        by_contra hne
        exact hkeep ⟨hpos, hne⟩
    obtain ⟨hsame, hneg⟩ := hs'
    have hlog : ∀ appId, (s'.record (.selected appId)).log = s.log ++ [.selected appId] := by
      intro appId
      rw [← hsame]
      rfl
    rw [if_neg hneg]
    generalize env.select s'.log = appId
    split
    · obtain ⟨hrecorded, hdone⟩ := h.select
        (t := (networkConnectClearRetryApp (s'.record (.selected appId))).unpair) htrust hnone
        (hlog appId)
      refine ⟨_, hrecorded, hdone, (by decide : (-1 : ℤ) < 0), fun hagain => ?_⟩
      exact absurd hagain (by decide : ¬(-1 : ℤ) = -3)
    · split
      · obtain ⟨hrecorded, hdone⟩ := h.select
          (t := networkConnectClearRetryApp (s'.record (.selected appId))) htrust hnone
          (hlog appId)
        refine ⟨_, hrecorded, hdone, (by decide : (-2 : ℤ) < 0), fun hagain => ?_⟩
        exact absurd hagain (by decide : ¬(-2 : ℤ) = -3)
      · rename_i hpos
        rw [not_lt] at hpos
        obtain ⟨hrecorded, hdone⟩ := h.select
          (t := { s'.record (.selected appId) with
            retryAppId := appId, retryHost := env.sunshineHost.text }) htrust hnone (hlog appId)
        have hstill : s'.isPaired = true := by
          rw [← hpaired, ← hsame]
        refine ⟨_, ⟨hrecorded, hdone, ?_, ?_⟩, rfl, hpos, htrust.append _, hstill⟩
        · rw [Kept, latest_snoc]
          exact ⟨hpos, rfl, rfl⟩
        · intro hfalse
          exact absurd (hstill.symm.trans hfalse) Bool.noConfusion

/-! ## The launch -/

theorem selected?_of_justified (h : Justified appId before e) : e.selected? = none := by
  cases e with
  | asked r reply => rfl
  | waited ms => rfl
  | prompted action => rfl
  | paired ok => rfl
  | selected appId => exact h.elim
  | rtsp ret => rfl

theorem isFailure_of_justified (h : Justified appId before e) : e.isFailure = false := by
  cases e with
  | asked r reply => rfl
  | waited ms => rfl
  | prompted action => rfl
  | paired ok => rfl
  | selected appId => rfl
  | rtsp ret => exact h.elim

theorem latest_selected?_of_justified (h : Always (Justified appId) l) :
    latest LaunchEvent.selected? l = none := by
  refine latest_eq_none fun e he => ?_
  obtain ⟨before, after, hsplit⟩ := List.append_of_mem he
  exact selected?_of_justified (h before e after hsplit)

theorem Ready.application_eq (h : Ready env base appId s l) :
    Launch.application base l = appId := by
  have hkept := h.kept
  rw [Kept] at hkept
  rw [Launch.application]
  split at hkept
  · rename_i hnone
    rw [hnone, Option.getD_none, ← hkept.1]
    exact h.application
  · rename_i selected hsome
    rw [hsome, Option.getD_some, ← hkept.2.1]
    exact h.application

variable {later : List LaunchEvent}

/-- What a request finds in a call, it finds in the whole connection. -/
theorem Heard.in_connection {r : Request} {reply : Reply} (h : Heard before r reply)
    (l : List LaunchEvent) : Heard (l ++ before) r reply := by
  obtain ⟨⟨resp, hfinds, hresp⟩, hcancelled⟩ := h
  refine ⟨⟨resp, ?_, hresp⟩, hcancelled⟩
  rw [Finds] at hfinds ⊢
  split
  · rename_i hclears
    rwa [if_pos hclears] at hfinds
  · rename_i hkeeps
    rw [if_neg hkeeps] at hfinds
    exact latest_append_of_some hfinds

/-- What has its reason in a call has it in the whole connection. -/
theorem Ready.allowed_later (h : Ready env base appId s l) (hl : Always (Justified appId) later) :
    Always (fun before e => Allowed base (l ++ before) e) later := by
  intro before e after hsplit
  have he := hl before e after hsplit
  have hbefore : Always (Justified appId) before := by
    rw [hsplit] at hl
    exact hl.of_append
  cases e with
  | asked r reply =>
      obtain ⟨hreason, -, hheard⟩ := he
      refine ⟨?_, hheard.in_connection l⟩
      cases r with
      | serverInfo secure => trivial
      | resume key => exact ⟨h.trusted.append before, latest_append_of_some hreason.1⟩
      | cancel =>
          refine ⟨h.trusted.append before, ?_⟩
          obtain hquit | ⟨hresume, hrefused⟩ := hreason
          · exact Or.inl (latest_append_of_some hquit)
          · exact Or.inr (Or.inl ⟨latest_append_of_some hresume, latest_append_of_some hrefused⟩)
      | launch mode key =>
          obtain ⟨happ, hwhy⟩ := hreason
          refine ⟨h.trusted.append before, ?_, happ ▸ h.nonneg, ?_⟩
          · rw [Launch.application,
              latest_append_of_none (latest_selected?_of_justified hbefore), happ]
            exact h.application_eq.symm
          · exact hwhy.imp latest_append_of_some latest_append_of_some
  | waited ms => exact fun hms => latest_append_of_some (he hms)
  | prompted action =>
      obtain ⟨⟨game, hgame, hpos⟩, -⟩ := he
      exact ⟨game, latest_append_of_some hgame, hpos⟩
  | paired ok => exact he.elim
  | selected appId => exact he.elim
  | rtsp ret => exact he.elim

/-- A call of `sunshine_launch_session`. -/
theorem Ready.launch {u : LaunchState} (h : Ready env base appId s l)
    (hlaw : LaunchLaw env.toLaunchEnv appId s.toLaunchState ret u later) :
    Recorded base (s.within u) (l ++ later) ∧ ¬Abandoned (l ++ later) ∧
      (u.isPaired = s.isPaired → Ready env base appId (s.within u) (l ++ later)) := by
  have hrecorded : Recorded base (s.within u) (l ++ later) := by
    refine ⟨?_, h.allowed.extend (h.allowed_later hlaw.justified)⟩
    rw [← List.append_assoc, ← h.log]
    exact hlaw.log
  have hdone : ¬Abandoned (l ++ later) := by
    refine not_pending_append h.done fun e he => ?_
    obtain ⟨before, after, hsplit⟩ := List.append_of_mem he
    rw [isFailure_of_justified (hlaw.justified before e after hsplit)]
    exact Bool.false_ne_true
  refine ⟨hrecorded, hdone, fun hsame => ?_⟩
  have htrue : u.isPaired = true := hsame.trans h.isPaired
  refine ⟨⟨hrecorded, hdone, ?_, ?_⟩, h.application, h.nonneg, h.trusted.append later, htrue⟩
  · refine h.kept.congr ?_ rfl rfl
    exact latest_append_of_none (latest_selected?_of_justified hlaw.justified)
  · intro hfalse
    exact absurd (htrue.symm.trans hfalse) Bool.noConfusion

/-- A session that passes for opened. -/
structure Open (s : LaunchState) (l : List LaunchEvent) : Prop where
  entered : latest LaunchEvent.entered? l = some true
  told : Told s l

theorem Entered.opened {env : LaunchEnv} {base u : LaunchState}
    (h : Entered env appId base u later)
    (hkeyed : ∀ e ∈ later, ∀ key ∈ e.key?, Keeps u key) :
    Open u (l ++ later) ∧ rtspFailures (l ++ later) = 0 := by
  obtain ⟨t, resp, url, hgranted, -⟩ := h.entered
  obtain ⟨r, reply, ⟨before, rfl⟩, hok, rfl, hopens⟩ := hgranted.opened
  have htold : ∀ key ∈ r.key?, Keeps u key :=
    hkeyed (.asked r reply) (List.mem_append_right before (List.mem_singleton_self _))
  rw [← List.append_assoc]
  cases r with
  | resume key =>
      refine ⟨⟨?_, Or.inl ⟨key, ?_, htold key rfl⟩⟩, countSince_snoc⟩
      · rw [latest_snoc, LaunchEvent.entered?, hok]
        rfl
      · rw [latest_snoc]
        rfl
  | launch mode key =>
      refine ⟨⟨?_, Or.inl ⟨key, ?_, htold key rfl⟩⟩, countSince_snoc⟩
      · rw [latest_snoc, LaunchEvent.entered?, hok]
        rfl
      · rw [latest_snoc]
        rfl
  | serverInfo secure =>
      refine ⟨⟨?_, Or.inr ⟨_, ?_, hopens⟩⟩, countSince_snoc⟩
      · rw [latest_snoc, LaunchEvent.entered?, hok]
        exact congrArg (fun b => (some b).or _) (decide_eq_true hopens)
      · rw [hostGame_snoc, LaunchEvent.game?, if_pos hok]
        rfl
  | cancel => exact hopens.elim

/-- What the two calls may end in. -/
def Launched (env : ConnectEnv) (base : ConnectState) (appId : ℤ) (p : ℤ × ConnectState) : Prop :=
  ∃ l, p.1 = 0 ∧ Ready env base appId p.2 l ∧ Open p.2.toLaunchState l ∧ rtspFailures l = 0 ∨
    p.1 = -1 ∧ Ready env base appId p.2 l ∨
      p.1 = -401 ∧ Recorded base p.2 l ∧ ¬Abandoned l

/-- One of them. -/
theorem Ready.launchOnce (h : Ready env base appId s l) :
    Launched env base appId ((sunshineLaunchSession env.toLaunchEnv appId s.toLaunchState).1,
      s.within (sunshineLaunchSession env.toLaunchEnv appId s.toLaunchState).2) := by
  obtain ⟨later, hlaw⟩ := sunshineLaunchSession_spec env.toLaunchEnv appId s.toLaunchState
  obtain ⟨hrecorded, hdone, hready⟩ := h.launch hlaw
  obtain ⟨hret, hentered, hsame⟩ | ⟨hret, hsame, -⟩ | ⟨hret, -⟩ := hlaw.outcome
  · obtain ⟨hopen, hzero⟩ := hentered.opened (l := l) hlaw.keyed
    exact ⟨l ++ later, Or.inl ⟨hret, hready hsame.isPaired, hopen, hzero⟩⟩
  · exact ⟨l ++ later, Or.inr (Or.inl ⟨hret, hready hsame.isPaired⟩)⟩
  · exact ⟨l ++ later, Or.inr (Or.inr ⟨hret, hrecorded, hdone⟩)⟩

theorem Ready.wait (h : Ready env base appId s l) (ms : ℕ) (hms : ms ≠ 6000) :
    Ready env base appId (s.within (wait ms s.toLaunchState)) (l ++ [.waited ms]) :=
  ⟨h.toConnecting.wait ms hms, h.application, h.nonneg, h.trusted.append _, h.isPaired⟩

theorem launchTwice_spec (h : Ready env base appId s l) :
    Launched env base appId (launchTwice env appId s) := by
  have hfirst := h.launchOnce
  rw [launchTwice]
  generalize sunshineLaunchSession env.toLaunchEnv appId s.toLaunchState = first at hfirst ⊢
  obtain ⟨ret, u⟩ := first
  dsimp only at hfirst ⊢
  split
  · rename_i hagain
    obtain ⟨l', ⟨hzero, -⟩ | ⟨-, hready⟩ | ⟨hrefused, -⟩⟩ := hfirst
    · exact absurd hzero hagain.1
    · exact (hready.wait 2000 (by decide)).launchOnce
    · exact absurd hrefused hagain.2
  · exact hfirst

theorem launchApp_spec (h : Ready env base appId s l) :
    Ends (fun e => ∃ l', Failed env base e.1 e.2 l')
      (fun s' => ∃ l', Ready env base appId s' l' ∧ Open s'.toLaunchState l' ∧
        rtspFailures l' = 0)
      (launchApp env appId s) := by
  have htwice := launchTwice_spec h
  rw [launchApp]
  generalize launchTwice env appId s = result at htwice ⊢
  obtain ⟨ret, s'⟩ := result
  dsimp only at htwice ⊢
  obtain ⟨l', ⟨rfl, hready, hopen⟩ | ⟨rfl, hready⟩ | ⟨rfl, hrecorded, hdone⟩⟩ := htwice
  · rw [if_neg (by decide), if_neg (by decide)]
    exact ⟨l', hready, hopen⟩
  · rw [if_neg (by decide), if_pos (by decide)]
    exact ⟨l', hready.toConnecting.failed (by decide : (-3 : ℤ) < 0)⟩
  · rw [if_pos rfl]
    refine ⟨l', ⟨hrecorded.log, hrecorded.allowed⟩, hdone, (by decide : (-1 : ℤ) < 0), ?_⟩
    exact fun hagain => absurd hagain (by decide : ¬(-1 : ℤ) = -3)

/-! ## The RTSP session -/

/-- Some attempts to set up the session have failed. -/
structure Spent (env : ConnectEnv) (base : ConnectState) (failures : ℕ) (s : ConnectState)
    (l : List LaunchEvent) : Prop extends Recorded base s l where
  kept : Kept env base s l
  trusted : Trusted l
  isPaired : s.isPaired = true
  failures : rtspFailures l = failures

variable {n : ℕ}

/-- One event more. -/
theorem Spent.snoc (h : Spent env base n s l) (he : Allowed base l e)
    (hselected : e.selected? = none) (hother : e.isOther = false)
    (ht : t.log = s.log ++ [e]) (happ : t.retryAppId = s.retryAppId)
    (hhost : t.retryHost = s.retryHost) (hpaired : t.isPaired = s.isPaired) :
    Spent env base (n + e.isFailure.toNat) t (l ++ [e]) where
  toRecorded := h.toRecorded.snoc he ht
  kept := h.kept.congr (by rw [latest_snoc, hselected, Option.none_or]) happ hhost
  trusted := h.trusted.append [e]
  isPaired := hpaired.trans h.isPaired
  failures := by
    rw [rtspFailures, countSince_snoc, hother, if_neg Bool.false_ne_true, ← h.failures]
    rfl

theorem Spent.wait (h : Spent env base n s l) (ms : ℕ) (hms : ms ≠ 6000) :
    Spent env base n (s.within (wait ms s.toLaunchState)) (l ++ [.waited ms]) :=
  h.snoc (e := .waited ms) (absurd · hms) rfl rfl rfl rfl rfl rfl

/-- The session is not there, and was cancelled. -/
theorem Spent.connecting (h : Spent env base n s l) (hdone : ¬Abandoned l) :
    Connecting env base s l where
  toRecorded := h.toRecorded
  done := hdone
  kept := h.kept
  paired := fun hfalse => absurd (h.isPaired.symm.trans hfalse) Bool.noConfusion

theorem Open.wait (h : Open s.toLaunchState l) (ms : ℕ) :
    Open (s.within (wait ms s.toLaunchState)).toLaunchState (l ++ [.waited ms]) where
  entered := by
    rw [latest_snoc, h.entered]
    rfl
  told := by
    rw [Told, latest_snoc, hostGame_snoc]
    exact h.told.imp (fun ⟨key, hkey, hkeeps⟩ => ⟨key, hkey, hkeeps.congr rfl rfl⟩) id

/-- The session is set up. -/
structure Connected (s : ConnectState) (l : List LaunchEvent) : Prop where
  ends : ∃ before ret, l = before ++ [.rtsp ret] ∧ 0 ≤ ret
  told : Told s.toLaunchState l

/-- One attempt. -/
theorem Spent.tryRtsp (h : Spent env base n s l) (hopen : Open s.toLaunchState l) (hn : n < 3) :
    Spent env base (n + (decide ((tryRtsp env s).1 < 0)).toNat) (tryRtsp env s).2
        (l ++ [.rtsp (tryRtsp env s).1]) ∧
      Open (tryRtsp env s).2.toLaunchState (l ++ [.rtsp (tryRtsp env s).1]) := by
  have hallowed : Allowed base l (.rtsp (rtspSession env.network s.rtsp).1) :=
    ⟨hopen.entered, h.failures.symm ▸ hn⟩
  refine ⟨h.snoc hallowed rfl rfl rfl rfl rfl rfl, ?_, ?_⟩
  · rw [latest_snoc, hopen.entered]
    rfl
  · rw [Told, latest_snoc, hostGame_snoc]
    exact hopen.told.imp (fun ⟨key, hkey, hkeeps⟩ => ⟨key, hkey, hkeeps.congr rfl rfl⟩) id

/-- All of them. -/
theorem rtspTries_spec (pauses : List ℕ) (hspent : Spent env base n s l)
    (hopen : Open s.toLaunchState l) (hn : n + pauses.length < 3)
    (hpauses : ∀ pause ∈ pauses, pause ≠ 6000) :
    ∃ l', ((rtspTries env s pauses).1 < 0 ∧
        Spent env base (n + pauses.length + 1) (rtspTries env s pauses).2 l' ∨
      0 ≤ (rtspTries env s pauses).1 ∧ Connected (rtspTries env s pauses).2 l' ∧
        Recorded base (rtspTries env s pauses).2 l') := by
  induction pauses generalizing n s l with
  | nil =>
      obtain ⟨htried, hstill⟩ := hspent.tryRtsp hopen hn
      refine ⟨l ++ [.rtsp (tryRtsp env s).1], ?_⟩
      by_cases hneg : (tryRtsp env s).1 < 0
      · rw [decide_eq_true hneg] at htried
        exact Or.inl ⟨hneg, htried⟩
      · have hpos := not_lt.mp hneg
        exact Or.inr ⟨hpos, ⟨⟨l, _, rfl, hpos⟩, hstill.told⟩, htried.toRecorded⟩
  | cons pause pauses ih =>
      rw [List.length_cons] at hn
      obtain ⟨htried, hstill⟩ := hspent.tryRtsp hopen (by omega)
      rw [rtspTries]
      generalize tryRtsp env s = first at htried hstill ⊢
      obtain ⟨ret, s'⟩ := first
      dsimp only at htried hstill ⊢
      split
      · rename_i hneg
        rw [decide_eq_true hneg] at htried
        have hrest := ih (htried.wait pause (hpauses pause List.mem_cons_self)) (hstill.wait pause)
          (by rw [Bool.toNat_true]; omega) fun p hp => hpauses p (List.mem_cons_of_mem pause hp)
        rw [Bool.toNat_true, Nat.add_assoc n 1, Nat.add_comm 1] at hrest
        exact hrest
      · rename_i hneg
        have hpos := not_lt.mp hneg
        exact ⟨_, Or.inr ⟨hpos, ⟨⟨l, _, rfl, hpos⟩, hstill.told⟩, htried.toRecorded⟩⟩

/-- The session that could not be set up is cancelled. -/
theorem Spent.cancel (h : Spent env base 3 s l) (resp : Text) {reply : Reply}
    (hreply : reply = (ask env.toLaunchEnv .cancel resp s.toLaunchState).1)
    (ht : t = s.record (.asked .cancel reply)) :
    Spent env base 3 t (l ++ [.asked .cancel reply]) ∧
      ¬Abandoned (l ++ [.asked .cancel reply]) := by
  have hheard : Heard l .cancel reply :=
    hreply ▸ heard_ask env.toLaunchEnv (r := .cancel) (fun h => absurd h.symm Bool.false_ne_true)
      s.toLaunchState
  subst ht
  constructor
  · exact h.snoc (e := .asked .cancel reply) ⟨⟨h.trusted, Or.inr (Or.inr h.failures)⟩, hheard⟩
      rfl rfl rfl rfl rfl rfl
  · exact not_pending_of_settles Bool.false_ne_true trivial

theorem setUpRtsp_spec (h : Ready env base appId s l) (hopen : Open s.toLaunchState l)
    (hzero : rtspFailures l = 0) :
    ∃ l', ((setUpRtsp env s).1 = -3 ∧ Connecting env base (setUpRtsp env s).2 l' ∨
      (setUpRtsp env s).1 = 0 ∧ Connected (setUpRtsp env s).2 l' ∧
        Recorded base (setUpRtsp env s).2 l' ∧ (setUpRtsp env s).2.retryAppId = -1) := by
  have hspent : Spent env base 0 s l :=
    ⟨h.toRecorded, h.kept, h.trusted, h.isPaired, hzero⟩
  obtain ⟨l', htries⟩ := rtspTries_spec [1000, 2000] (hspent.wait 500 (by decide))
    (hopen.wait 500) (by decide) (by simp)
  rw [setUpRtsp]
  generalize rtspTries env (s.within (wait 500 s.toLaunchState)) [1000, 2000] = tries at htries ⊢
  obtain ⟨ret, s'⟩ := tries
  dsimp only at htries ⊢
  obtain ⟨hneg, hthree⟩ | ⟨hpos, hconnected, hrecorded⟩ := htries
  · rw [if_pos hneg, askTwice]
    dsimp only
    obtain ⟨hfirst, hdone⟩ := hthree.cancel [] rfl rfl
    split
    · have hwaited := hfirst.wait 8000 (by decide)
      refine ⟨_, Or.inl ⟨rfl, hwaited.connecting ?_⟩⟩
      refine not_pending_append hdone fun d hd => ?_
      rw [List.mem_singleton.mp hd]
      exact Bool.false_ne_true
    · obtain ⟨hsecond, hdone'⟩ := (hfirst.wait 3000 (by decide)).cancel _ rfl rfl
      refine ⟨_, Or.inl ⟨rfl, (hsecond.wait 8000 (by decide)).connecting ?_⟩⟩
      refine not_pending_append hdone' fun d hd => ?_
      rw [List.mem_singleton.mp hd]
      exact Bool.false_ne_true
  · rw [if_neg (not_lt.mpr hpos)]
    exact ⟨l', Or.inr ⟨rfl, ⟨hconnected.ends, hconnected.told⟩,
      ⟨hrecorded.log, hrecorded.allowed⟩, rfl⟩⟩

/-! ## The law -/

/-- How a call of `network_connect_all` ends. -/
inductive Outcome (env : ConnectEnv) (base : ConnectState) (ret : ℤ) (s : ConnectState)
    (l : List LaunchEvent) : Prop where
  | connected (zero : ret = 0) (recorded : Recorded base s l) (connected : Connected s l)
      (cleared : s.retryAppId = -1)
  | failed (failed : Failed env base ret s l)

theorem connectSteps_spec (h : Connecting env base s l) :
    Ends (fun e => ∃ l', Outcome env base e.1 e.2 l') (fun p => ∃ l', Outcome env base p.1 p.2 l')
      (connectSteps env s) := by
  have hfailed : ∀ e : ConnectExit, (∃ l', Failed env base e.1 e.2 l') →
      ∃ l', Outcome env base e.1 e.2 l' := by
    rintro e ⟨l', hfailed⟩
    exact ⟨l', .failed hfailed⟩
  rw [connectSteps]
  refine ((verifyPairing_spec (h.wait 100 (by decide))).mono hfailed fun _ => id).bind ?_
  rintro s ⟨l, hverified, htrust⟩
  refine ((ensurePaired_spec hverified htrust).mono hfailed fun _ => id).bind ?_
  rintro s ⟨l, hpaired, hisPaired, htrusted⟩
  refine ((selectApp_spec (hpaired.wait 100 (by decide)) hisPaired (htrusted.append _)).mono hfailed
    fun _ => id).bind ?_
  rintro ⟨appId, s⟩ ⟨l, hready⟩
  refine ((launchApp_spec hready).mono hfailed fun _ => id).bind ?_
  rintro s ⟨l, hlaunched, hopen, hzero⟩
  obtain ⟨l', ⟨hret, hagain⟩ | ⟨hret, hconnected, hrecorded, hcleared⟩⟩ :=
    setUpRtsp_spec hlaunched hopen hzero
  · refine ⟨l', .failed (hagain.failed ?_)⟩
    rw [hret]
    decide
  · exact ⟨l', .connected hret hrecorded hconnected hcleared⟩

theorem networkConnectAll_spec (h : Connecting env base s l) :
    ∃ l', Outcome env base (networkConnectAll env s).1 (networkConnectAll env s).2 l' := by
  have hsteps := connectSteps_spec h
  rw [networkConnectAll]
  split
  · exact ⟨l, .failed (h.failed (by decide : (-3 : ℤ) < 0))⟩
  · generalize connectSteps env s = result at hsteps ⊢
    cases result with
    | ok p => exact hsteps
    | error e => exact hsteps

theorem connectLoop_spec (attempts : ℕ) (h : Connecting env base s l) :
    ∃ l', Outcome env base (connectLoop env attempts s).1 (connectLoop env attempts s).2 l' := by
  induction attempts generalizing s l with
  | zero => exact ⟨l, .failed (h.failed (by decide : (-3 : ℤ) < 0))⟩
  | succ attempts ih =>
      obtain ⟨l', houtcome⟩ := networkConnectAll_spec h
      rw [connectLoop]
      generalize networkConnectAll env s = result at houtcome ⊢
      obtain ⟨ret, s'⟩ := result
      dsimp only at houtcome ⊢
      split
      · rename_i hagain
        cases houtcome with
        | connected zero recorded connected cleared =>
            rw [zero] at hagain
            exact absurd hagain.1 (by decide)
        | failed failed =>
            refine ih (l := l' ++ [.waited 5000]) ?_
            have hconnecting := failed.again hagain.1
            refine hconnecting.snoc (e := .waited 5000) (fun h6000 => absurd h6000 (by decide))
              rfl rfl rfl rfl rfl fun hfalse => ?_
            rw [latest_snoc]
            exact hconnecting.paired hfalse
      · exact ⟨l', houtcome⟩

/-- What a connection has done: its events, and its result. -/
structure ConnectLaw (base : ConnectState) (ret : ℤ) (s : ConnectState) (l : List LaunchEvent) :
    Prop where
  log : s.log = base.log ++ l
  allowed : Always (Allowed base) l
  done : ¬Abandoned l
  cleared : s.retryAppId = -1
  outcome : ret = 0 ∧ Connected s l ∨ ret < 0

theorem Connected.not_abandoned (h : Connected s l) : ¬Abandoned l := by
  obtain ⟨before, ret, rfl, hpos⟩ := h.ends
  refine not_pending_of_settles ?_ trivial
  rw [LaunchEvent.isFailure, decide_eq_true_iff]
  exact not_lt.mpr hpos

/-- Every connection has done so, whatever the host answers and the user chooses. -/
theorem connect_law (env : ConnectEnv) (base : ConnectState) :
    ∃ l, ConnectLaw base (connectToHost env base).1 (connectToHost env base).2 l := by
  obtain ⟨l, houtcome⟩ := connectLoop_spec 3 (Connecting.start env base)
  rw [connectToHost]
  generalize connectLoop env 3 base = result at houtcome ⊢
  obtain ⟨ret, s⟩ := result
  dsimp only at houtcome ⊢
  cases houtcome with
  | connected zero recorded connected cleared =>
      rw [if_neg (by rw [zero]; decide)]
      exact ⟨l, recorded.log, recorded.allowed, connected.not_abandoned, cleared,
        Or.inl ⟨zero, connected⟩⟩
  | failed failed =>
      rw [if_pos failed.negative]
      exact ⟨l, failed.log, failed.allowed, failed.done, rfl, Or.inr failed.negative⟩

end MoonlightPsp.Launch
