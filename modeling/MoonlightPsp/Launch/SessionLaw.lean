import MoonlightPsp.Launch.Session

/-!
# What a launch does

Whatever the host answers and the user chooses, each request has its reason in what came before
it: what runs is not stopped without a choice of the user, and not launched over.  The keys in the
requests are those that the client keeps.  The function succeeds only where the text that it
has behind its last request grants a session and names it; where the request left no text of
its own, that is the one of the request before.
-/

namespace MoonlightPsp.Launch

open Rtsp Config EarlyExit EventLog PastTime
open Pairing (tagValue)

/-! ## What the log tells -/

/-- A session that was stopped gets its time. -/
inductive Rest where
  | untouched
  | stopped
  | rested

/-- The keys in it. -/
def Request.key? : Request → Option SessionKey
  | resume key => some key
  | launch _ key => some key
  | _ => none

namespace LaunchEvent

/-- The game that the host reports. -/
def game? : LaunchEvent → Option ℤ
  | asked (.serverInfo _) reply => if reply.isOk then some (currentGame reply.resp) else none
  | _ => none

/-- What the user chose. -/
def action? : LaunchEvent → Option SessionAction
  | prompted action => some action
  | _ => none

/-- Whether the session passes for resumed. -/
def resumed? : LaunchEvent → Option Bool
  | asked (.resume _) reply => some reply.isOk
  | _ => none

/-- What became of the session that the host reports. -/
def rest? : LaunchEvent → Option Rest
  | asked (.serverInfo _) _ => some .untouched
  | asked .cancel _ => some .stopped
  | waited ms => if ms = 6000 then some .rested else none
  | _ => none

/-- The text in the buffer of the responses. -/
def heard? : LaunchEvent → Option Text
  | asked (.serverInfo _) reply => some reply.resp
  | asked (.resume _) reply => some reply.resp
  | asked (.launch _ _) reply => some reply.resp
  | _ => none

/-- The keys in a request. -/
def key? : LaunchEvent → Option SessionKey
  | asked r _ => r.key?
  | _ => none

/-- Whether it is this request. -/
def asks (r : Request) : LaunchEvent → Bool
  | asked r' _ => r' = r
  | _ => false

end LaunchEvent

variable {l before : List LaunchEvent} {e : LaunchEvent}

/-- What the host last reported. -/
def hostGame (l : List LaunchEvent) : Option ℤ := latest LaunchEvent.game? l

/-- What the user last chose. -/
def chosen (l : List LaunchEvent) : Option SessionAction := latest LaunchEvent.action? l

/-- What came of the last resumption. -/
def resumed (l : List LaunchEvent) : Option Bool := latest LaunchEvent.resumed? l

/-- What became of the session that the host last reported. -/
def rest (l : List LaunchEvent) : Option Rest := latest LaunchEvent.rest? l

/-- What is in the buffer of the responses. -/
def heard (l : List LaunchEvent) : Option Text := latest LaunchEvent.heard? l

/-- How often a request was made. -/
def timesAsked (r : Request) (l : List LaunchEvent) : ℕ := l.countP (·.asks r)

theorem hostGame_snoc : hostGame (l ++ [e]) = e.game?.or (hostGame l) := latest_snoc

theorem chosen_snoc : chosen (l ++ [e]) = e.action?.or (chosen l) := latest_snoc

theorem resumed_snoc : resumed (l ++ [e]) = e.resumed?.or (resumed l) := latest_snoc

theorem rest_snoc : rest (l ++ [e]) = e.rest?.or (rest l) := latest_snoc

theorem heard_snoc : heard (l ++ [e]) = e.heard?.or (heard l) := latest_snoc

theorem timesAsked_snoc (r : Request) :
    timesAsked r (l ++ [e]) = timesAsked r l + (e.asks r).toNat :=
  countP_snoc

@[simp] theorem asks_asked (r : Request) (reply : Reply) :
    (LaunchEvent.asked r reply).asks r = true :=
  decide_eq_true rfl

/-- Why a call for an application makes a request, from the events of the same call before it. -/
def Reason (appId : ℤ) (before : List LaunchEvent) : Request → Prop
  | .serverInfo _ => hostGame before = none
  | .resume _ => chosen before = some .resume ∧ resumed before ≠ some true
  | .cancel =>
      chosen before = some .quit ∨ chosen before = some .resume ∧ resumed before = some false
  | .launch mode _ =>
      mode.appId = appId ∧ (hostGame before = some 0 ∨ rest before = some .rested)

/-- What a request finds in its buffer. -/
def Finds (before : List LaunchEvent) (r : Request) (resp : Text) : Prop :=
  if r.clears then resp = [] else heard before = some resp

/-- The text of a reply is the response, or else what the buffer held before; and there is none
of a cancellation. -/
structure Heard (before : List LaunchEvent) (r : Request) (reply : Reply) : Prop where
  found : ∃ resp, Finds before r resp ∧ reply.resp = reply.answer.leave resp
  cancelled : r = .cancel → reply.resp = []

/-- Each event has its reason in those before it. -/
def Justified (appId : ℤ) (before : List LaunchEvent) : LaunchEvent → Prop
  | .asked r reply =>
      Reason appId before r ∧ timesAsked r before < 2 ∧ Heard before r reply
  | .waited ms => ms = 6000 → rest before = some .stopped
  | .prompted _ => (∃ game, hostGame before = some game ∧ 0 < game) ∧ chosen before = none
  | _ => False

/-- The keys as the client keeps them, with an id that is a positive `int`. -/
structure Keeps (s : LaunchState) (key : SessionKey) : Prop where
  riKey : s.remoteInputKey = some key.riKey
  riKeyId : s.avRiKeyId = key.riKeyId
  id_pos : 0 < key.riKeyId.toNat
  id_lt : key.riKeyId.toNat < 2 ^ 31

/-- The pairing is as it was. -/
structure SamePairing (s t : LaunchState) : Prop where
  isPaired : t.isPaired = s.isPaired
  lastPairedHost : t.lastPairedHost = s.lastPairedHost
  pairedHosts : t.config.toPairedHosts = s.config.toPairedHosts
  saved : t.saved = s.saved

/-- A call has added these events. -/
structure Running (appId : ℤ) (base s : LaunchState) (l : List LaunchEvent) : Prop where
  log : s.log = base.log ++ l
  justified : Always (Justified appId) l
  keyed : ∀ e ∈ l, ∀ key ∈ e.key?, Keeps s key
  pairing : SamePairing base s
  rtsp : s.rtsp = base.rtsp

/-- The events end with this reply. -/
def EndsWith (l : List LaunchEvent) (r : Request) (reply : Reply) : Prop :=
  ∃ before, l = before ++ [.asked r reply]

/-- The launch was refused for the want of a pairing, and the pairing is forgotten. -/
structure Unpaired (env : LaunchEnv) (appId : ℤ) (base s : LaunchState)
    (l : List LaunchEvent) : Prop where
  refused : ∃ mode key reply, EndsWith l (.launch mode key) reply ∧ reply.ok = true ∧
    xmlGetStatusCodeAttr reply.resp = 401
  forgotten : ∃ t, Running appId base t l ∧ s = forgetPairing env t

/-- A call has failed. -/
def Fails (env : LaunchEnv) (appId : ℤ) (base : LaunchState) (e : Exit) : Prop :=
  ∃ l, e.1 = -1 ∧ Running appId base e.2 l ∨ e.1 = -401 ∧ Unpaired env appId base e.2 l

/-! ## Requests -/

variable {env : LaunchEnv} {appId : ℤ} {base s t : LaunchState} {r : Request}

theorem Running.start (base : LaunchState) : Running appId base base [] where
  log := (List.append_nil _).symm
  justified := always_nil
  keyed := fun _ he => absurd he List.not_mem_nil
  pairing := ⟨rfl, rfl, rfl, rfl⟩
  rtsp := rfl

/-- A state that differs in its configuration alone. -/
theorem Running.congr (h : Running appId base s l) (hlog : t.log = s.log)
    (hkey : t.remoteInputKey = s.remoteInputKey) (hid : t.avRiKeyId = s.avRiKeyId)
    (hpairing : SamePairing s t) (hrtsp : t.rtsp = s.rtsp) : Running appId base t l where
  log := hlog.trans h.log
  justified := h.justified
  keyed := fun e he key hkeys =>
    have hkeeps := h.keyed e he key hkeys
    ⟨hkey.trans hkeeps.riKey, hid.trans hkeeps.riKeyId, hkeeps.id_pos, hkeeps.id_lt⟩
  pairing :=
    ⟨hpairing.isPaired.trans h.pairing.isPaired,
      hpairing.lastPairedHost.trans h.pairing.lastPairedHost,
      hpairing.pairedHosts.trans h.pairing.pairedHosts, hpairing.saved.trans h.pairing.saved⟩
  rtsp := hrtsp.trans h.rtsp

/-- One event more. -/
theorem Running.snoc (h : Running appId base s l) (he : Justified appId l e)
    (hkeyed : ∀ key ∈ e.key?, Keeps s key) :
    Running appId base { s with log := s.log ++ [e] } (l ++ [e]) where
  log := by rw [h.log, List.append_assoc]
  justified := h.justified.snoc he
  keyed := fun d hd key hkey => by
    obtain hd | hd := List.mem_append.mp hd
    · have hkeeps := h.keyed d hd key hkey
      exact ⟨hkeeps.riKey, hkeeps.riKeyId, hkeeps.id_pos, hkeeps.id_lt⟩
    · rw [List.mem_singleton.mp hd] at hkey
      have hkeeps := hkeyed key hkey
      exact ⟨hkeeps.riKey, hkeeps.riKeyId, hkeeps.id_pos, hkeeps.id_lt⟩
  pairing := ⟨h.pairing.isPaired, h.pairing.lastPairedHost, h.pairing.pairedHosts, h.pairing.saved⟩
  rtsp := h.rtsp

theorem Running.wait (h : Running appId base s l) {ms : ℕ}
    (hms : ms = 6000 → rest l = some .stopped) :
    Running appId base (wait ms s) (l ++ [.waited ms]) :=
  h.snoc hms fun _ hkey => absurd hkey.symm (Option.some_ne_none _)

/-- The events of a request that may be made twice. -/
inductive Tried (r : Request) (pause : ℕ) (good : Reply → Bool) (l : List LaunchEvent)
    (reply : Reply) : List LaunchEvent → Prop where
  | once (hgood : good reply = true) : Tried r pause good l reply (l ++ [.asked r reply])
  | twice (first : Reply) (hbad : good first = false) :
      Tried r pause good l reply
        (l ++ [.asked r first] ++ [.waited pause] ++ [.asked r reply])

/-- A request that does not clear the buffer of the responses uses it. -/
theorem heard?_asked (hkeeps : r.clears = false) (reply : Reply) :
    (LaunchEvent.asked r reply).heard? = some reply.resp := by
  cases r with
  | serverInfo secure => cases hkeeps
  | resume key => rfl
  | cancel => cases hkeeps
  | launch mode key => rfl

theorem ask_cancel_resp (env : LaunchEnv) (resp : Text) (s : LaunchState) :
    (ask env .cancel resp s).1.resp = [] := by
  change (Request.read .cancel (env.host s.log _)).leave [] = []
  cases env.host s.log (Request.cancel.path env.uid env.uuid) with
  | failed => rfl
  | empty => rfl
  | silent => rfl
  | body resp => rfl

/-- What a request reads, where it shares the buffer of the responses. -/
theorem heard_ask (env : LaunchEnv) {resp : Text}
    (hbuffer : r.clears = false → heard before = some resp) (s : LaunchState) :
    Heard before r (ask env r resp s).1 := by
  refine ⟨⟨if r.clears then [] else resp, ?_, rfl⟩, ?_⟩
  · rw [Finds]
    cases hclears : r.clears with
    | false => exact hbuffer hclears
    | true => rfl
  · rintro rfl
    exact ask_cancel_resp env resp s

/-- What must hold for a request to be made, and to be made again. -/
theorem askTwice_spec (env : LaunchEnv) (h : Running appId base s l) {pause : ℕ}
    {good : Reply → Bool} (resp : Text) (hbuffer : r.clears = false → heard l = some resp)
    (hkeyed : ∀ key ∈ r.key?, Keeps s key) (hpause : pause ≠ 6000)
    (hfresh : timesAsked r l = 0) (hreason : Reason appId l r)
    (hagain : ∀ first, good first = false →
      Reason appId (l ++ [.asked r first] ++ [.waited pause]) r) :
    ∃ l', Running appId base (askTwice env pause good r resp s).2 l' ∧
      Tried r pause good l (askTwice env pause good r resp s).1 l' := by
  have hfirst : Justified appId l (.asked r (ask env r resp s).1) :=
    ⟨hreason, hfresh ▸ Nat.two_pos, heard_ask env hbuffer s⟩
  have hone : Running appId base (ask env r resp s).2 (l ++ [.asked r (ask env r resp s).1]) :=
    h.snoc hfirst hkeyed
  rw [askTwice]
  dsimp only
  by_cases hgood : good (ask env r resp s).1 = true
  · rw [if_pos hgood]
    exact ⟨_, hone, .once hgood⟩
  · rw [if_neg hgood]
    have hbad := Bool.eq_false_iff.mpr hgood
    have hwaited := hone.wait fun h6000 : pause = 6000 => absurd h6000 hpause
    have hcount : timesAsked r (l ++ [.asked r (ask env r resp s).1] ++ [.waited pause]) < 2 := by
      rw [timesAsked_snoc, timesAsked_snoc, hfresh, asks_asked]
      exact Nat.one_lt_two
    have hbuffer' : r.clears = false →
        heard (l ++ [.asked r (ask env r resp s).1] ++ [.waited pause]) =
          some (ask env r resp s).1.resp := by
      intro hkeeps
      rw [heard_snoc, heard_snoc, heard?_asked hkeeps]
      rfl
    have hsecond : Justified appId (l ++ [.asked r (ask env r resp s).1] ++ [.waited pause])
        (.asked r (ask env r (ask env r resp s).1.resp (wait pause (ask env r resp s).2)).1) :=
      ⟨hagain _ hbad, hcount, heard_ask env hbuffer' _⟩
    refine ⟨_, hwaited.snoc hsecond fun key hkey => ?_, .twice _ hbad⟩
    have hkeeps := hkeyed key hkey
    exact ⟨hkeeps.riKey, hkeeps.riKeyId, hkeeps.id_pos, hkeeps.id_lt⟩

theorem asks_of_ne {r' : Request} (hne : r' ≠ r) (reply : Reply) :
    (LaunchEvent.asked r' reply).asks r = false :=
  decide_eq_false hne

section Tried

variable {pause : ℕ} {good : Reply → Bool} {reply : Reply} {l' : List LaunchEvent}

theorem Tried.timesAsked_of_ne (h : Tried r pause good l reply l') {r' : Request}
    (hne : r ≠ r') : timesAsked r' l' = timesAsked r' l := by
  cases h with
  | once hgood => rw [timesAsked_snoc, asks_of_ne hne, Bool.toNat_false, Nat.add_zero]
  | twice first hbad =>
      rw [timesAsked_snoc, timesAsked_snoc, timesAsked_snoc, asks_of_ne hne, asks_of_ne hne]
      rfl

theorem Tried.endsWith (h : Tried r pause good l reply l') : EndsWith l' r reply := by
  cases h with
  | once hgood => exact ⟨_, rfl⟩
  | twice first hbad => exact ⟨_, rfl⟩

/-- What a request says nothing of is as it was. -/
theorem Tried.latest_eq {β : Type} {f : LaunchEvent → Option β}
    (h : Tried r pause good l reply l') (hasked : ∀ reply, f (.asked r reply) = none)
    (hwaited : f (.waited pause) = none) : latest f l' = latest f l := by
  cases h with
  | once hgood => rw [latest_snoc, hasked, Option.none_or]
  | twice first hbad =>
      rw [latest_snoc, latest_snoc, latest_snoc, hasked, hasked, hwaited]
      rfl

/-- What the last answer says. -/
theorem Tried.latest_of_some {β : Type} {f : LaunchEvent → Option β} {b : β}
    (h : Tried r pause good l reply l') (hasked : f (.asked r reply) = some b) :
    latest f l' = some b := by
  cases h with
  | once hgood => rw [latest_snoc, hasked, Option.some_or]
  | twice first hbad => rw [latest_snoc, hasked, Option.some_or]

end Tried

theorem Keeps.congr {key : SessionKey} (h : Keeps s key)
    (hkey : t.remoteInputKey = s.remoteInputKey) (hid : t.avRiKeyId = s.avRiKeyId) :
    Keeps t key :=
  ⟨hkey.trans h.riKey, hid.trans h.riKeyId, h.id_pos, h.id_lt⟩

theorem askTwice_keys (env : LaunchEnv) (pause : ℕ) (good : Reply → Bool) (r : Request)
    (resp : Text) (s : LaunchState) :
    (askTwice env pause good r resp s).2.remoteInputKey = s.remoteInputKey ∧
      (askTwice env pause good r resp s).2.avRiKeyId = s.avRiKeyId := by
  rw [askTwice]
  split
  rename_i reply t hask
  obtain ⟨_, rfl⟩ := Prod.mk.inj hask
  split
  · exact ⟨rfl, rfl⟩
  · exact ⟨rfl, rfl⟩

/-- Nothing is read behind a cancellation. -/
theorem askTwice_cancel_resp (env : LaunchEnv) (pause : ℕ) (good : Reply → Bool) (resp : Text)
    (s : LaunchState) : (askTwice env pause good .cancel resp s).1.resp = [] := by
  rw [askTwice]
  dsimp only
  split
  · exact ask_cancel_resp env resp s
  · exact ask_cancel_resp env _ _

/-! ## The server information -/

/-- The events of step A. -/
def IsProbe (e : LaunchEvent) : Prop :=
  (∃ secure reply, e = .asked (.serverInfo secure) reply) ∨ e = .waited 750

theorem tried_probes {secure : Bool} {reply : Reply} {l' : List LaunchEvent}
    (h : Tried (.serverInfo secure) 750 Reply.isOk l reply l') (hl : ∀ e ∈ l, IsProbe e) :
    ∀ e ∈ l', IsProbe e := by
  have hasked : ∀ reply, IsProbe (.asked (.serverInfo secure) reply) :=
    fun reply => Or.inl ⟨secure, reply, rfl⟩
  cases h with
  | once hgood =>
      intro e he
      obtain he | he := List.mem_append.mp he
      · exact hl e he
      · rw [List.mem_singleton.mp he]
        exact hasked reply
  | twice first hbad =>
      intro e he
      simp only [List.mem_append, List.mem_singleton] at he
      obtain ((he | rfl) | rfl) | rfl := he
      · exact hl e he
      · exact hasked first
      · exact Or.inr rfl
      · exact hasked reply

theorem game?_of_not_ok {secure : Bool} {reply : Reply} (h : reply.isOk = false) :
    (LaunchEvent.asked (.serverInfo secure) reply).game? = none := by
  rw [LaunchEvent.game?, h]
  rfl

theorem game?_of_ok {secure : Bool} {reply : Reply} (h : reply.isOk = true) :
    (LaunchEvent.asked (.serverInfo secure) reply).game? = some (currentGame reply.resp) :=
  if_pos h

/-- The host is asked again as long as it has not answered. -/
theorem tried_hostGame {secure : Bool} {reply : Reply} {l' : List LaunchEvent}
    (h : Tried (.serverInfo secure) 750 Reply.isOk l reply l') (hl : hostGame l = none)
    (hbad : reply.isOk = false) : hostGame l' = none := by
  cases h with
  | once hgood =>
      rw [hbad] at hgood
      exact absurd hgood Bool.false_ne_true
  | twice first hfirst =>
      rw [hostGame_snoc, hostGame_snoc, hostGame_snoc, game?_of_not_ok hbad,
        game?_of_not_ok hfirst, hl]
      rfl

/-- Step A has gone through. -/
structure Probed (appId : ℤ) (base s : LaunchState) (info : Text) (l : List LaunchEvent) :
    Prop where
  running : Running appId base s l
  probes : ∀ e ∈ l, IsProbe e
  game : hostGame l = some (currentGame info)
  heard : heard l = some info
  ends : ∃ secure reply, EndsWith l (.serverInfo secure) reply ∧ reply.isOk = true ∧
    reply.resp = info

/-- One of the two ports. -/
theorem askServerInfo_spec (env : LaunchEnv) (h : Running appId base s l) (hl : ∀ e ∈ l, IsProbe e)
    (hgame : hostGame l = none) (secure : Bool) (hfresh : timesAsked (.serverInfo secure) l = 0)
    (resp : Text) :
    ∃ l', Running appId base (askTwice env 750 Reply.isOk (.serverInfo secure) resp s).2 l' ∧
      (∀ e ∈ l', IsProbe e) ∧
      Tried (.serverInfo secure) 750 Reply.isOk l
        (askTwice env 750 Reply.isOk (.serverInfo secure) resp s).1 l' := by
  have hagain : ∀ first : Reply, first.isOk = false →
      Reason appId (l ++ [.asked (.serverInfo secure) first] ++ [.waited 750])
        (.serverInfo secure) := by
    intro first hbad
    change hostGame _ = none
    rw [hostGame_snoc, hostGame_snoc, game?_of_not_ok hbad, hgame]
    rfl
  obtain ⟨l', hrunning, htried⟩ := askTwice_spec env (r := .serverInfo secure) h resp
    Bool.noConfusion (fun key hkey => absurd hkey.symm (Option.some_ne_none key)) (by decide)
    hfresh hgame hagain
  exact ⟨l', hrunning, tried_probes htried hl, htried⟩

theorem probed_of_tried {secure : Bool} {reply : Reply} {l' : List LaunchEvent}
    (hrunning : Running appId base s l') (hprobes : ∀ e ∈ l', IsProbe e)
    (htried : Tried (.serverInfo secure) 750 Reply.isOk l reply l')
    (hok : reply.isOk = true) : Probed appId base s reply.resp l' where
  running := hrunning
  probes := hprobes
  game := htried.latest_of_some (game?_of_ok hok)
  heard := htried.latest_of_some rfl
  ends := ⟨secure, reply, htried.endsWith, hok, rfl⟩

theorem queryServerInfo_spec (env : LaunchEnv) (base : LaunchState) :
    Ends (Fails env appId base) (fun p => ∃ l, Probed appId base p.2 p.1 l)
      (queryServerInfo env base) := by
  have hnone : ∀ e ∈ ([] : List LaunchEvent), IsProbe e := fun _ he => absurd he List.not_mem_nil
  obtain ⟨l, hrunning, hprobes, htried⟩ :=
    askServerInfo_spec env (Running.start base) hnone rfl true rfl []
  -- The plain port is asked where the other one has not answered.
  have hfallback : ∀ resp s, Running appId base s l → hostGame l = none →
      Ends (Fails env appId base) (fun p => ∃ l, Probed appId base p.2 p.1 l)
        (queryServerInfo.fallback env resp s) := by
    intro resp s hs hgame
    have hfresh : timesAsked (.serverInfo false) l = 0 :=
      htried.timesAsked_of_ne (by decide)
    obtain ⟨l', hs', hprobes', htried'⟩ :=
      askServerInfo_spec env hs hprobes hgame false hfresh resp
    rw [queryServerInfo.fallback]
    dsimp only
    split
    · rename_i hok
      exact ⟨l', probed_of_tried hs' hprobes' htried' hok⟩
    · exact ⟨l', Or.inl ⟨rfl, hs'⟩⟩
  rw [queryServerInfo]
  dsimp only
  split
  · rename_i hok
    exact ⟨l, probed_of_tried hrunning hprobes htried hok⟩
  · rename_i hbad
    exact hfallback _ _ hrunning (tried_hostGame htried rfl (by simpa using hbad))

/-! ## The keys -/

theorem key?_of_isProbe (h : IsProbe e) : e.key? = none := by
  obtain ⟨secure, reply, rfl⟩ | rfl := h
  · rfl
  · rfl

/-- Where no request had keys, they may be drawn. -/
theorem Running.draw (h : Running appId base s l) (hprobes : ∀ e ∈ l, IsProbe e)
    (riKey : Option (Vector UInt8 16)) (riKeyId : UInt32) :
    Running appId base { s with remoteInputKey := riKey, avRiKeyId := riKeyId } l where
  log := h.log
  justified := h.justified
  keyed := fun e he key hkey => by
    rw [key?_of_isProbe (hprobes e he)] at hkey
    exact absurd hkey.symm (Option.some_ne_none key)
  pairing := ⟨h.pairing.isPaired, h.pairing.lastPairedHost, h.pairing.pairedHosts, h.pairing.saved⟩
  rtsp := h.rtsp

/-- The id is a positive `int`. -/
theorem riKeyId_bounds (drawn : UInt32) :
    0 < (if drawn &&& 0x7FFFFFFF = 0 then 1 else drawn &&& 0x7FFFFFFF).toNat ∧
      (if drawn &&& 0x7FFFFFFF = 0 then 1 else drawn &&& 0x7FFFFFFF).toNat < 2 ^ 31 := by
  split
  · decide
  · rename_i hne
    constructor
    · apply Nat.pos_of_ne_zero
      intro hzero
      exact hne (UInt32.toNat_inj.mp hzero)
    · rw [UInt32.toNat_and]
      exact Nat.lt_of_le_of_lt Nat.and_le_right (by decide)

theorem drawKeys_spec {info : Text} (h : Probed appId base s info l) :
    Ends (Fails env appId base) (fun p => Probed appId base p.2 info l ∧ Keeps p.2 p.1)
      (drawKeys env s) := by
  rw [drawKeys]
  split
  · exact ⟨l, Or.inl ⟨rfl, h.running⟩⟩
  · rename_i riKey hdraw
    dsimp only
    split
    · exact ⟨l, Or.inl ⟨rfl, h.running.draw h.probes (some riKey) s.avRiKeyId⟩⟩
    · rename_i drawn hdrawn
      obtain ⟨hpos, hlt⟩ := riKeyId_bounds drawn
      refine ⟨⟨h.running.draw h.probes (some riKey) _, h.probes, h.game, h.heard, h.ends⟩, ?_⟩
      exact ⟨rfl, rfl, hpos, hlt⟩

/-! ## The session that runs -/

/-- Nothing was asked to be launched, and it may be now. -/
structure MayLaunch (l : List LaunchEvent) : Prop where
  reason : hostGame l = some 0 ∨ rest l = some .rested
  fresh : ∀ mode key, timesAsked (.launch mode key) l = 0

/-- A resumption or a launch opens a session; a host that reports a negative number is taken at
its word. -/
def Request.Opens (resp : Text) : Request → Prop
  | .serverInfo _ => currentGame resp < 0
  | .resume _ => True
  | .cancel => False
  | .launch _ _ => True

/-- The last request opened a session, by the text that was in the buffer then. -/
def Opened (l : List LaunchEvent) (resp : Text) : Prop :=
  ∃ r reply, EndsWith l r reply ∧ reply.isOk = true ∧ reply.resp = resp ∧ r.Opens resp

/-- What step C goes on with: a launch, or the session that was opened. -/
def Settled (appId : ℤ) (base : LaunchState) (key : SessionKey) (p : Course × LaunchState) :
    Prop :=
  ∃ l, Running appId base p.2 l ∧ Keeps p.2 key ∧ heard l = some p.1.2 ∧
    match p.1.1 with
    | true => MayLaunch l
    | false => Opened l p.1.2

theorem quitCurrent_spec {key : SessionKey} {resp : Text} (h : Running appId base s l)
    (hkeeps : Keeps s key) (hreason : Reason appId l .cancel) (hfresh : timesAsked .cancel l = 0)
    (hlaunch : ∀ mode key, timesAsked (.launch mode key) l = 0) (hheard : heard l = some resp) :
    Ends (Fails env appId base) (Settled appId base key) (quitCurrent env resp s) := by
  have hagain : ∀ first, Reply.ok first = false →
      Reason appId (l ++ [.asked .cancel first] ++ [.waited 3000]) .cancel := by
    intro first _
    change chosen _ = _ ∨ chosen _ = _ ∧ resumed _ = _
    rw [chosen_snoc, chosen_snoc, resumed_snoc, resumed_snoc]
    exact hreason
  obtain ⟨l', hrunning, htried⟩ := askTwice_spec env (r := .cancel) h []
    (fun hclears => absurd hclears.symm Bool.false_ne_true)
    (fun key hkey => absurd hkey.symm (Option.some_ne_none key)) (by decide) hfresh hreason hagain
  obtain ⟨hkey, hid⟩ := askTwice_keys env 3000 Reply.ok .cancel [] s
  have hstopped : rest l' = some .stopped := htried.latest_of_some rfl
  have hstill : heard l' = some resp := (htried.latest_eq (fun _ => rfl) rfl).trans hheard
  -- No response is read, so that the status is never 401.
  have hstatus : ¬(Reply.ok (askTwice env 3000 Reply.ok .cancel [] s).1 = true ∧
      xmlGetStatusCodeAttr (askTwice env 3000 Reply.ok .cancel [] s).1.resp = 401) := by
    rw [askTwice_cancel_resp]
    exact fun hrefused => absurd hrefused.2 (by decide)
  rw [quitCurrent]
  dsimp only
  rw [if_neg hstatus]
  refine ⟨l' ++ [.waited 6000], hrunning.wait fun _ => hstopped, hkeeps.congr hkey hid, ?_, ?_⟩
  · rw [heard_snoc, hstill]
    rfl
  · constructor
    · exact Or.inr (by rw [rest_snoc]; rfl)
    · intro mode key
      rw [timesAsked_snoc, htried.timesAsked_of_ne Request.noConfusion, hlaunch]
      rfl

/-- Before the choice nothing but reports was asked for. -/
theorem Probed.timesAsked_eq_zero {info : Text} (h : Probed appId base s info l) {r : Request}
    (hr : ∀ secure, r ≠ .serverInfo secure) : timesAsked r l = 0 := by
  refine List.countP_eq_zero.mpr fun e he => ?_
  rw [Bool.not_eq_true]
  obtain ⟨secure, reply, rfl⟩ | rfl := h.probes e he
  · exact asks_of_ne (Ne.symm (hr secure)) reply
  · rfl

theorem Probed.unsettled {info : Text} (h : Probed appId base s info l) :
    chosen l = none ∧ resumed l = none := by
  have hprobe : ∀ e ∈ l, e.action? = none ∧ e.resumed? = none := by
    intro e he
    obtain ⟨secure, reply, rfl⟩ | rfl := h.probes e he
    · exact ⟨rfl, rfl⟩
    · exact ⟨rfl, rfl⟩
  exact ⟨latest_eq_none fun e he => (hprobe e he).1, latest_eq_none fun e he => (hprobe e he).2⟩

/-- The session is resumed, or quit where that failed. -/
theorem resumeCurrent_spec {key : SessionKey} {resp : Text} (h : Running appId base s l)
    (hkeeps : Keeps s key) (hchosen : chosen l = some .resume) (hresumed : resumed l = none)
    (hfresh : ∀ r, (∀ secure, r ≠ .serverInfo secure) → timesAsked r l = 0)
    (hheard : heard l = some resp) :
    let asked := askTwice env 3000 Reply.ok (.resume key) resp s
    Ends (Fails env appId base) (Settled appId base key)
      (if asked.1.isOk then .ok ((false, asked.1.resp), asked.2)
        else quitCurrent env asked.1.resp asked.2) := by
  have hreason : Reason appId l (.resume key) := by
    refine ⟨hchosen, ?_⟩
    rw [hresumed]
    exact (Option.some_ne_none true).symm
  have hagain : ∀ first, Reply.ok first = false →
      Reason appId (l ++ [.asked (.resume key) first] ++ [.waited 3000]) (.resume key) := by
    intro first hbad
    constructor
    · rw [chosen_snoc, chosen_snoc, hchosen]
      rfl
    · have hno : resumed (l ++ [.asked (.resume key) first] ++ [.waited 3000]) = some false := by
        rw [resumed_snoc, resumed_snoc]
        change some first.isOk = some false
        rw [Reply.isOk, hbad, Bool.false_and]
      rw [hno]
      decide
  have hkeyed : ∀ k ∈ (Request.resume key).key?, Keeps s k := by
    intro k hk
    rw [← Option.some.inj hk]
    exact hkeeps
  obtain ⟨l', hrunning, htried⟩ := askTwice_spec env h resp (fun _ => hheard) hkeyed
    (by decide) (hfresh _ fun secure => Request.noConfusion) hreason hagain
  obtain ⟨hkey, hid⟩ := askTwice_keys env 3000 Reply.ok (.resume key) resp s
  dsimp only
  generalize askTwice env 3000 Reply.ok (.resume key) resp s = asked at hrunning htried hkey hid ⊢
  obtain ⟨reply, t⟩ := asked
  have hkeeps' : Keeps t key := hkeeps.congr hkey hid
  have hread : heard l' = some reply.resp := htried.latest_of_some rfl
  dsimp only
  split
  · rename_i hok
    exact ⟨l', hrunning, hkeeps', hread, _, reply, htried.endsWith, hok, rfl, trivial⟩
  · rename_i hbad
    rw [Bool.not_eq_true] at hbad
    have hrefused : resumed l' = some false := by
      apply htried.latest_of_some
      rw [LaunchEvent.resumed?, hbad]
    have hstill : chosen l' = some .resume :=
      (htried.latest_eq (fun _ => rfl) rfl).trans hchosen
    have hunasked : ∀ r, (∀ secure, r ≠ .serverInfo secure) → .resume key ≠ r →
        timesAsked r l' = 0 := by
      intro r hr hne
      rw [htried.timesAsked_of_ne hne]
      exact hfresh r hr
    refine quitCurrent_spec hrunning hkeeps' (Or.inr ⟨hstill, hrefused⟩) ?_ ?_ hread
    · exact hunasked _ (fun secure => Request.noConfusion) Request.noConfusion
    · exact fun mode key' =>
        hunasked _ (fun secure => Request.noConfusion) Request.noConfusion

theorem settleExisting_spec {key : SessionKey} {info : Text} (h : Probed appId base s info l)
    (hkeeps : Keeps s key) (hgame : 0 < currentGame info) :
    Ends (Fails env appId base) (Settled appId base key) (settleExisting env key info s) := by
  obtain ⟨hchosen, hresumed⟩ := h.unsettled
  rw [settleExisting]
  generalize (env.user s.log).action = action
  have hprompted := h.running.snoc (e := .prompted action) ⟨⟨_, h.game, hgame⟩, hchosen⟩
    fun key hkey => absurd hkey.symm (Option.some_ne_none key)
  have hnow : chosen (l ++ [.prompted action]) = some action := by rw [chosen_snoc]; rfl
  have hnone : resumed (l ++ [.prompted action]) = none := by rw [resumed_snoc]; exact hresumed
  have hheard : heard (l ++ [.prompted action]) = some info := by
    rw [heard_snoc, h.heard]
    rfl
  have hfresh : ∀ r, (∀ secure, r ≠ .serverInfo secure) →
      timesAsked r (l ++ [.prompted action]) = 0 := by
    intro r hr
    rw [timesAsked_snoc, h.timesAsked_eq_zero hr]
    rfl
  have hkeeps' : Keeps { s with log := s.log ++ [.prompted action] } key := hkeeps.congr rfl rfl
  dsimp only
  split
  · exact ⟨_, Or.inl ⟨rfl, hprompted⟩⟩
  · refine quitCurrent_spec hprompted hkeeps' (Or.inl hnow) ?_ ?_ hheard
    · exact hfresh _ fun secure => Request.noConfusion
    · exact fun mode key => hfresh _ fun secure => Request.noConfusion
  · exact resumeCurrent_spec hprompted hkeeps' hnow hnone hfresh hheard

theorem settle_spec {key : SessionKey} {info : Text} (h : Probed appId base s info l)
    (hkeeps : Keeps s key) :
    Ends (Fails env appId base) (Settled appId base key) (settle env key info s) := by
  rw [settle]
  split
  · rename_i hgame
    exact settleExisting_spec h hkeeps hgame
  · rename_i hidle
    refine ⟨l, h.running, hkeeps, h.heard, ?_⟩
    dsimp only
    by_cases hzero : currentGame info = 0
    · rw [decide_eq_true hzero]
      refine ⟨Or.inl (h.game.trans (congrArg some hzero)), fun mode key => ?_⟩
      exact h.timesAsked_eq_zero fun secure => Request.noConfusion
    · rw [decide_eq_false hzero]
      obtain ⟨secure, reply, hends, hok, hinfo⟩ := h.ends
      exact ⟨_, reply, hends, hok, hinfo, show currentGame info < 0 by omega⟩

/-! ## The launch -/

/-- A session was opened. -/
structure Granted (appId : ℤ) (base s : LaunchState) (resp : Text) (l : List LaunchEvent) :
    Prop where
  running : Running appId base s l
  opened : Opened l resp

theorem fixResolution_pairedHosts (env : LaunchEnv) (config : PspConfig) :
    (fixResolution env config).toPairedHosts = config.toPairedHosts := by
  rw [fixResolution]
  dsimp only
  split
  · rw [apply_ite PspConfig.toPairedHosts]
    exact ite_self _
  · rfl

theorem launchFresh_spec (appId : ℤ) {key : SessionKey} {resp : Text}
    (h : Running appId base s l) (hkeeps : Keeps s key) (hheard : heard l = some resp)
    (hmay : MayLaunch l) :
    Ends (Fails env appId base) (fun p => ∃ l', Granted appId base p.2 p.1 l')
      (launchFresh env appId key resp s) := by
  rw [launchFresh]
  dsimp only
  have hfixed : Running appId base { s with config := fixResolution env s.config } l :=
    h.congr rfl rfl rfl ⟨rfl, rfl, fixResolution_pairedHosts env s.config, rfl⟩ rfl
  have hkeeps' : Keeps { s with config := fixResolution env s.config } key := hkeeps.congr rfl rfl
  have happ : (launchMode appId (fixResolution env s.config)).appId = appId := rfl
  generalize launchMode appId (fixResolution env s.config) = mode at happ ⊢
  have hreason : Reason appId l (.launch mode key) := ⟨happ, hmay.reason⟩
  have hagain : ∀ first, Reply.ok first = false →
      Reason appId (l ++ [.asked (.launch mode key) first] ++ [.waited 2000])
        (.launch mode key) := by
    intro first _
    refine ⟨happ, ?_⟩
    rw [hostGame_snoc, hostGame_snoc, rest_snoc, rest_snoc]
    exact hmay.reason
  have hkeyed : ∀ k ∈ (Request.launch mode key).key?,
      Keeps { s with config := fixResolution env s.config } k := by
    intro k hk
    rw [← Option.some.inj hk]
    exact hkeeps'
  obtain ⟨l', hrunning, htried⟩ := askTwice_spec env hfixed resp (fun _ => hheard) hkeyed
    (by decide) (hmay.fresh mode key) hreason hagain
  generalize askTwice env 2000 Reply.ok (.launch mode key) resp
    { s with config := fixResolution env s.config } = asked at hrunning htried ⊢
  obtain ⟨reply, t⟩ := asked
  dsimp only
  split
  · rename_i hzero
    split
    · rename_i hok
      refine ⟨l', hrunning, _, reply, htried.endsWith, ?_, rfl, trivial⟩
      rw [Reply.isOk, hzero, decide_eq_true hok]
      rfl
    · split
      · rename_i hrefused
        exact ⟨l', Or.inr ⟨rfl, ⟨mode, key, reply, htried.endsWith, hzero, hrefused⟩, t,
          hrunning, rfl⟩⟩
      · exact ⟨l', Or.inl ⟨rfl, hrunning⟩⟩
  · exact ⟨l', Or.inl ⟨rfl, hrunning⟩⟩

/-- The session is entered that the text names. -/
structure Entered (env : LaunchEnv) (appId : ℤ) (base s : LaunchState)
    (l : List LaunchEvent) : Prop where
  entered : ∃ t resp url, Granted appId base t resp l ∧
    tagValue "sessionUrl0".toList 256 resp = some url ∧
      s = { t with rtsp := enterSession env url base.rtsp }

theorem takeSession_spec {resp : Text} (h : Granted appId base s resp l) :
    Ends (Fails env appId base) (fun p => Entered env appId base p.2 l)
      (takeSession env resp s) := by
  rw [takeSession]
  split
  · exact ⟨l, Or.inl ⟨rfl, h.running⟩⟩
  · rename_i url hurl
    exact ⟨s, resp, url, h, hurl, by rw [h.running.rtsp]⟩

theorem launchSteps_spec (env : LaunchEnv) (appId : ℤ) (base : LaunchState) :
    Ends (Fails env appId base) (fun p => ∃ l, Entered env appId base p.2 l)
      (launchSteps env appId base) := by
  refine (queryServerInfo_spec env base).bind ?_
  rintro ⟨info, s⟩ ⟨l, hprobed⟩
  refine (drawKeys_spec hprobed).bind ?_
  rintro ⟨key, s⟩ ⟨hprobed, hkeeps⟩
  refine (settle_spec hprobed hkeeps).bind ?_
  rintro ⟨⟨needed, resp⟩, s⟩ ⟨l', hrunning, hkeeps, hheard, hsettled⟩
  cases needed with
  | false =>
      exact (takeSession_spec ⟨hrunning, hsettled⟩).mono (fun _ => id) fun _ h => ⟨l', h⟩
  | true =>
      refine (launchFresh_spec appId hrunning hkeeps hheard hsettled).bind ?_
      rintro ⟨resp, s⟩ ⟨l'', hgranted⟩
      exact (takeSession_spec hgranted).mono (fun _ => id) fun _ h => ⟨l'', h⟩

/-! ## The law -/

/-- What a call of `sunshine_launch_session` has done: its events, and its result. -/
structure LaunchLaw (env : LaunchEnv) (appId : ℤ) (base : LaunchState) (ret : ℤ)
    (s : LaunchState) (l : List LaunchEvent) : Prop where
  log : s.log = base.log ++ l
  justified : Always (Justified appId) l
  keyed : ∀ e ∈ l, ∀ key ∈ e.key?, Keeps s key
  outcome :
    ret = 0 ∧ Entered env appId base s l ∧ SamePairing base s ∨
      ret = -1 ∧ SamePairing base s ∧ s.rtsp = base.rtsp ∨
      ret = -401 ∧ Unpaired env appId base s l

theorem sunshineLaunchSession_spec (env : LaunchEnv) (appId : ℤ) (base : LaunchState) :
    ∃ l, LaunchLaw env appId base (sunshineLaunchSession env appId base).1
      (sunshineLaunchSession env appId base).2 l := by
  have hspec := launchSteps_spec env appId base
  rw [sunshineLaunchSession]
  cases hsteps : launchSteps env appId base with
  | ok p =>
      rw [hsteps] at hspec
      obtain ⟨l, hentered⟩ := hspec
      obtain ⟨t, resp, url, hgranted, hurl, hs⟩ := hentered.entered
      have h := hgranted.running
      refine ⟨l, ?_, h.justified, ?_, Or.inl ⟨rfl, hentered, ?_⟩⟩
      · rw [hs]
        exact h.log
      · intro e he key hkey
        exact (h.keyed e he key hkey).congr (by rw [hs]) (by rw [hs])
      · have hpairing := h.pairing
        refine ⟨?_, ?_, ?_, ?_⟩
        · rw [hs, ← hpairing.isPaired]
        · rw [hs, ← hpairing.lastPairedHost]
        · rw [hs, ← hpairing.pairedHosts]
        · rw [hs, ← hpairing.saved]
  | error e =>
      rw [hsteps] at hspec
      obtain ⟨l, ⟨hret, h⟩ | ⟨hret, hunpaired⟩⟩ := hspec
      · exact ⟨l, h.log, h.justified, h.keyed, Or.inr (Or.inl ⟨hret, h.pairing, h.rtsp⟩)⟩
      · obtain ⟨t, h, hs⟩ := hunpaired.forgotten
        refine ⟨l, ?_, h.justified, ?_, Or.inr (Or.inr ⟨hret, hunpaired⟩)⟩
        · change e.2.log = _
          rw [hs]
          exact h.log
        · intro d hd key hkey
          change Keeps e.2 key
          rw [hs]
          exact (h.keyed d hd key hkey).congr rfl rfl

/-- Every call has done so, whatever the host answers and the user chooses. -/
theorem launch_session_law (env : LaunchEnv) (appId : ℤ) (base : LaunchState) :
    ∃ l, LaunchLaw env appId base (sunshineLaunchSession env appId base).1
      (sunshineLaunchSession env appId base).2 l :=
  sunshineLaunchSession_spec env appId base

end MoonlightPsp.Launch
