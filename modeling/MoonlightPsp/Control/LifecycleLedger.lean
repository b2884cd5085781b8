import MoonlightPsp.Control.Lifecycle
import MoonlightPsp.Control.ReceiveBounds

/-!
# Every resource of the control channel is freed once

Over every run of starts, stops and aborts, whichever step of a start fails and whenever
the threads end, the channel frees what it made and nothing twice.  A thread deletes
itself; only one that does not end in time runs on without its variable.
-/

namespace MoonlightPsp.Control

open HandleLedger HandleLedger.HandleTable

variable {data : Packet} {connectId : UInt32} {peer : ServerPeer} {s : Lifecycle}
  {w : HandleTable CtrlResource} {lost : List (Handle CtrlResource)} {a : StartAnswers}

/-! ## The handshake -/

/-- The loop stays within the packet, and only a VERIFY_CONNECT with the number that was sent
ends it with 0. -/
theorem verifyLoop_spec (data : Packet) (connectId : UInt32) (peer : ServerPeer) (p : ℕ) :
    ∃ r, verifyLoop data connectId peer p = some r ∧
      (r.2 = 0 → Verifies data connectId r.1) := by
  induction hn : data.length - p using Nat.strong_induction_on generalizing p with
  | _ n ih =>
  have hfails : ∀ peer : ServerPeer, (-1 : ℤ) = 0 → Verifies data connectId peer :=
    fun _ hno => absurd hno (by decide)
  rw [verifyLoop]
  split
  · rename_i hroom
    obtain ⟨cmd, hcmd⟩ : ∃ cmd, data[p]? = some cmd :=
      ⟨_, List.getElem?_eq_getElem (show p < data.length by omega)⟩
    rw [bind_eq_of_eq hcmd]
    split
    · split
      · exact ⟨_, rfl, hfails peer⟩
      · exact ih _ (by omega) (p + 8) rfl
    · split
      · rename_i hverify
        split
        · exact ⟨_, rfl, hfails peer⟩
        · rename_i hwhole
          obtain ⟨session, hsession⟩ : ∃ session, data[p + 6]? = some session :=
            ⟨_, List.getElem?_eq_getElem (show p + 6 < data.length by omega)⟩
          obtain ⟨verifyCid, hcid⟩ := getBe32_isSome (d := data) (i := p + 40) (by omega)
          have hpeer := getBe16_eq (d := data) (i := p + 4) (by omega)
          rw [bind_eq_of_eq hpeer, bind_eq_of_eq hsession, bind_eq_of_eq hcid]
          refine ⟨_, rfl, fun hzero => ?_⟩
          have hsame : verifyCid = connectId := by
            by_contra hother
            simp [hother] at hzero
          refine ⟨p, by omega, ⟨cmd, hcmd, hverify⟩, hpeer, ⟨session, hsession, rfl⟩, ?_⟩
          rw [hcid, hsame]
      · exact ⟨_, rfl, hfails peer⟩
  · exact ⟨_, rfl, hfails peer⟩

theorem parseVerifyConnect_spec (data : Packet) (connectId : UInt32) (peer : ServerPeer) :
    ∃ r, parseVerifyConnect data connectId peer = some r ∧
      (r.2 = 0 → Verifies data connectId r.1) := by
  rw [parseVerifyConnect]
  split
  · exact ⟨_, rfl, fun hno => absurd hno (by decide : (-1 : ℤ) ≠ 0)⟩
  · rw [bind_eq_of_eq (getBe16_eq (d := data) (i := 0) (by omega)),
      bind_eq_of_eq (getBe16_eq (d := data) (i := 2) (by omega))]
    exact verifyLoop_spec data connectId peer 4

/-- A handshake that succeeds was ended by one of the packets. -/
theorem connectAttempts_spec (connectId : UInt32) (peer : ServerPeer)
    (responses : List (Option Packet)) :
    ∃ r, connectAttempts connectId peer responses = some r ∧
      (r.2 = true → ∃ data, some data ∈ responses ∧
        Verifies (data.take 128) connectId r.1) := by
  induction responses generalizing peer with
  | nil => exact ⟨_, rfl, fun hno => Bool.noConfusion hno⟩
  | cons response rest ih =>
      cases response with
      | none =>
          obtain ⟨r, hr, hverified⟩ := ih peer
          refine ⟨r, hr, fun htrue => ?_⟩
          obtain ⟨data, hmem, hdata⟩ := hverified htrue
          exact ⟨data, List.mem_cons_of_mem _ hmem, hdata⟩
      | some data =>
          obtain ⟨r, hr, hverified⟩ := parseVerifyConnect_spec (data.take 128) connectId peer
          rw [connectAttempts, bind_eq_of_eq hr]
          split
          · rename_i hzero
            exact ⟨_, rfl, fun _ => ⟨data, List.mem_cons_self, hverified hzero⟩⟩
          · obtain ⟨r', hr', hverified'⟩ := ih r.1
            refine ⟨r', hr', fun htrue => ?_⟩
            obtain ⟨later, hmem, hdata⟩ := hverified' htrue
            exact ⟨later, List.mem_cons_of_mem _ hmem, hdata⟩

/-! ## The failures -/

/-- What the channel holds and what it gave up, where the threads end by themselves. -/
abbrev KeepsCtrl (w : HandleTable CtrlResource) (lost : List (Handle CtrlResource))
    (kinds : List CtrlResource) : Prop :=
  Keeps CtrlResource.IsThread w lost kinds

/-- The kinds of a session without socket and threads, with or without the semaphore of the
input. -/
def IsSession (kinds : List CtrlResource) : Prop :=
  .gcmSem ∈ kinds ∧ .seqSem ∈ kinds ∧ .gcm ∈ kinds ∧
    .socket ∉ kinds ∧ .recvThread ∉ kinds ∧ .pingThread ∉ kinds

instance (kinds : List CtrlResource) : Decidable (IsSession kinds) :=
  inferInstanceAs (Decidable (_ ∧ _))

/-- A session is released. -/
theorem keeps_releaseSession {kinds : List CtrlResource} (h : KeepsCtrl w lost kinds)
    (hkinds : IsSession kinds) : KeepsCtrl (releaseSession w) lost [] := by
  obtain ⟨hgcmSem, hseqSem, hgcm, hsocket, hrecv, hping⟩ := hkinds
  have hinput := h.freeHeld (k := .inputSem) (by decide)
  rw [releaseSession, deleteCtrlGcmSem]
  refine (((hinput.free (k := .gcmSem) (by decide) ?_).free (k := .seqSem) (by decide)
    ?_).free (k := .gcm) (by decide) ?_).congr fun k => ?_
  · simpa using hgcmSem
  · simpa using hseqSem
  · simpa using hgcm
  · cases k <;> simp [hsocket, hrecv, hping]

/-- The end of a thread is waited for; only if it does not come, the thread goes astray. -/
theorem keeps_joinThread {kinds : List CtrlResource} (h : KeepsCtrl w lost kinds)
    {k : CtrlResource} (hk : k.IsThread) (ends : Bool) :
    ∃ lost', KeepsCtrl (joinThread w k ends) lost' (kinds.filter (· ≠ k)) ∧
      (ends = true → lost' = lost) := by
  rw [joinThread]
  split
  · rename_i hhas
    have hmem := (h.has k).mp hhas
    cases ends with
    | false =>
        obtain ⟨lost', hlost, -⟩ := h.discard hk hmem
        exact ⟨lost', hlost, fun hno => Bool.noConfusion hno⟩
    | true =>
        obtain ⟨lost', hlost, hsame⟩ := (h.expireHeld hk).discard hk hmem
        refine ⟨lost', hlost, fun _ => hsame.resolve_right ?_⟩
        rintro ⟨id, hid, hlive, -⟩
        rw [(expireHeld_table k).1] at hid
        rw [expireHeld, hid] at hlive
        exact not_live_expire _ hlive
  · rename_i hnone
    refine ⟨lost, h.congr fun k' => ?_, fun _ => rfl⟩
    rw [List.mem_filter, decide_eq_true_eq]
    constructor
    · intro hmem
      refine ⟨hmem, ?_⟩
      rintro rfl
      exact hnone ((h.has _).mpr hmem)
    · exact fun hmem => hmem.1

/-- A thread that is waited for without a limit ends. -/
theorem keeps_joinThread_true {kinds : List CtrlResource} (h : KeepsCtrl w lost kinds)
    {k : CtrlResource} (hk : k.IsThread) :
    KeepsCtrl (joinThread w k true) lost (kinds.filter (· ≠ k)) := by
  obtain ⟨lost', hjoined, hsame⟩ := keeps_joinThread h hk true
  rwa [hsame rfl] at hjoined

/-- What a start ends with: the law, and the ledger of all or nothing. -/
def StartsLawfully (lost : List (Handle CtrlResource)) (a : StartAnswers)
    (r : Lifecycle × ℤ) : Prop :=
  StartLaw a r ∧ KeepsCtrl r.1.handles lost (if r.2 = 0 then allResources else [])

/-- A start that fails holds nothing. -/
theorem startsLawfully_of_failed {t : Lifecycle} {code : ℤ} (h : KeepsCtrl t.handles lost [])
    (hcode : code ≠ 0) : StartsLawfully lost a (t, code) := by
  refine ⟨⟨fun k => ?_, fun hzero => absurd hzero hcode⟩, ?_⟩
  · exact iff_of_false (fun hhas => List.not_mem_nil ((h.has k).mp hhas)) hcode
  · rwa [if_neg hcode]

theorem startThreads_lawful
    (h : KeepsCtrl s.handles lost [.socket, .inputSem, .gcmSem, .seqSem, .gcm])
    (hverified : ∃ data, some data ∈ a.responses.take 5 ∧
      Verifies (data.take 128) a.connectId s.peer) :
    StartsLawfully lost a (startThreads s a) := by
  have hrecv := h.make (k := .recvThread) (by decide)
  have hping := hrecv.make (k := .pingThread) (by decide)
  rw [startThreads]
  split
  · exact startsLawfully_of_failed (keeps_releaseSession
      (h.free (k := .socket) (by decide) (by decide)) (by decide)) (by decide)
  · dsimp only
    split
    · have hunstarted := h.freeMade (k := .recvThread) (by decide)
      exact startsLawfully_of_failed (keeps_releaseSession
        (hunstarted.free (k := .socket) (by decide) (by decide)) (by decide)) (by decide)
    · split
      · have hclosed := hrecv.freeHeld (k := .socket) (by decide)
        exact startsLawfully_of_failed (keeps_releaseSession
          (keeps_joinThread_true hclosed (k := .recvThread) (by decide)) (by decide))
          (by decide)
      · split
        · have hunstarted := hrecv.freeMade (k := .pingThread) (by decide)
          have hclosed := hunstarted.freeHeld (k := .socket) (by decide)
          exact startsLawfully_of_failed (keeps_releaseSession
            (keeps_joinThread_true hclosed (k := .recvThread) (by decide)) (by decide))
            (by decide)
        · refine ⟨⟨fun k => iff_of_true ((hping.has k).mpr ?_) rfl, fun _ => hverified⟩, hping⟩
          cases k <;> decide

theorem startHandshake_lawful
    (h : KeepsCtrl s.handles lost [.socket, .inputSem, .gcmSem, .seqSem, .gcm]) :
    ∃ r, startHandshake s a = some r ∧ StartsLawfully lost a r := by
  obtain ⟨r, hr, hverified⟩ := connectAttempts_spec a.connectId s.peer (a.responses.take 5)
  have hclosed := keeps_releaseSession (h.free (k := .socket) (by decide) (by decide))
    (by decide)
  rw [startHandshake, bind_eq_of_eq hr]
  split
  · exact ⟨_, rfl, startsLawfully_of_failed hclosed (by decide)⟩
  · rename_i hok
    split
    · exact ⟨_, rfl, startsLawfully_of_failed hclosed (by decide)⟩
    · split
      · exact ⟨_, rfl, startsLawfully_of_failed hclosed (by decide)⟩
      · exact ⟨_, rfl, startThreads_lawful h (hverified (by simpa using hok))⟩

theorem startResources_lawful (h : KeepsCtrl s.handles lost []) :
    ∃ r, startResources s a = some r ∧ StartsLawfully lost a r := by
  have hgcm := h.make (k := .gcm) (by decide)
  have hseq := hgcm.make (k := .seqSem) (by decide)
  have hgcmSem := hseq.make (k := .gcmSem) (by decide)
  have hinput := hgcmSem.make (k := .inputSem) (by decide)
  have hreleased := hgcm.free (k := .gcm) (by decide) (by decide)
  rw [startResources]
  split
  · exact ⟨_, rfl, startsLawfully_of_failed hreleased (by decide)⟩
  · split
    · exact ⟨_, rfl, startsLawfully_of_failed hreleased (by decide)⟩
    · dsimp only
      split
      · exact ⟨_, rfl, startsLawfully_of_failed
          ((hseq.free (k := .seqSem) (by decide) (by decide)).free (k := .gcm) (by decide)
            (by decide)) (by decide)⟩
      · split
        · exact ⟨_, rfl, startsLawfully_of_failed
            (keeps_releaseSession hgcmSem (by decide)) (by decide)⟩
        · split
          · exact ⟨_, rfl, startsLawfully_of_failed
              (keeps_releaseSession hinput (by decide)) (by decide)⟩
          · exact startHandshake_lawful (hinput.make (k := .socket) (by decide))

/-! ## The stop -/

/-- A stop leaves nothing held. -/
theorem keeps_controlStreamStop {kinds : List CtrlResource} (h : KeepsCtrl s.handles lost kinds)
    (hinput : .inputSem ∈ kinds → .gcmSem ∈ kinds) (b : StopAnswers) :
    ∃ lost', KeepsCtrl (s.controlStreamStop b).handles lost' [] ∧
      (b.recvEnds = true ∧ b.pingEnds = true → lost' = lost) := by
  obtain ⟨lost₁, hrecv, hsame₁⟩ := keeps_joinThread (h.freeHeld (k := .socket) (by decide))
    (k := .recvThread) (by decide) b.recvEnds
  obtain ⟨lost₂, hping, hsame₂⟩ :=
    keeps_joinThread hrecv (k := .pingThread) (by decide) b.pingEnds
  have hgcm := hping.freeHeld (k := .gcm) (by decide)
  refine ⟨lost₂, ?_, fun hends => (hsame₂ hends.2).trans (hsame₁ hends.1)⟩
  rw [Lifecycle.controlStreamStop]
  dsimp only
  split
  · rename_i hhas
    refine (((hgcm.freeHeld (k := .inputSem) (by decide)).free (k := .gcmSem) (by decide)
      ?_).freeHeld (k := .seqSem) (by decide)).congr fun k => ?_
    · simpa using (hgcm.has _).mp hhas
    · cases k <;> simp
  · rename_i hnone
    have hmem : .gcmSem ∉ kinds := by
      intro hmem
      refine hnone ((hgcm.has _).mpr ?_)
      simpa using hmem
    refine (hgcm.freeHeld (k := .seqSem) (by decide)).congr fun k => ?_
    have hfree : .inputSem ∉ kinds := fun hno => hmem (hinput hno)
    cases k <;> simp [hmem, hfree]

/-! ## Runs -/

/-- What is held between the calls. -/
theorem Kept.keeps (h : Kept s) : ∃ kinds, KeepsCtrl s.handles s.handles.astray kinds ∧
    (.inputSem ∈ kinds → .gcmSem ∈ kinds) := by
  obtain ⟨sound, hnone | hall | haborted⟩ := h
  · exact ⟨[], ⟨sound, rfl, fun k => iff_of_false (hnone k) List.not_mem_nil⟩,
      fun hno => absurd hno List.not_mem_nil⟩
  · refine ⟨allResources, ⟨sound, rfl, fun k => iff_of_true (hall k) ?_⟩, fun _ => by decide⟩
    cases k <;> decide
  · refine ⟨allResources.filter (· ≠ .socket), ⟨sound, rfl, fun k => ?_⟩, fun _ => by decide⟩
    rw [haborted k]
    cases k <;> decide

theorem kept_of_keeps {kinds : List CtrlResource} (h : KeepsCtrl s.handles lost kinds)
    (hkinds : kinds = [] ∨ kinds = allResources ∨ kinds = allResources.filter (· ≠ .socket)) :
    Kept s := by
  refine ⟨h.sound, ?_⟩
  rcases hkinds with rfl | rfl | rfl
  · exact .inl fun k hhas => List.not_mem_nil ((h.has k).mp hhas)
  · refine .inr (.inl fun k => (h.has k).mpr ?_)
    cases k <;> decide
  · refine .inr (.inr fun k => (h.has k).trans ?_)
    cases k <;> decide

/-- A start in front of which everything is stopped. -/
theorem Kept.start (h : Kept s) (a : StartAnswers) :
    ∃ r, s.controlStreamStart a = some r ∧ StartLaw a r ∧ Kept r.1 ∧
      (a.stop.recvEnds = true ∧ a.stop.pingEnds = true →
        r.1.handles.astray = s.handles.astray) := by
  obtain ⟨kinds, hkeeps, hinput⟩ := h.keeps
  -- Whether or not there was something to stop, nothing is held then.
  obtain ⟨lost', hstopped, hsame⟩ : ∃ lost',
      KeepsCtrl (if s.handles.Has .socket ∨ s.handles.Has .recvThread then
        s.controlStreamStop a.stop else s).handles lost' [] ∧
      (a.stop.recvEnds = true ∧ a.stop.pingEnds = true → lost' = s.handles.astray) := by
    split
    · exact keeps_controlStreamStop hkeeps hinput a.stop
    · rename_i hidle
      obtain ⟨hsocket, hrecv⟩ := not_or.mp hidle
      refine ⟨_, ⟨h.sound, rfl, fun k => iff_of_false ?_ List.not_mem_nil⟩, fun _ => rfl⟩
      rcases h.phase with hnone | hall | haborted
      · exact hnone k
      · exact absurd (hall _) hsocket
      · exact absurd ((haborted _).mpr (by decide)) hrecv
  rw [Lifecycle.controlStreamStart]
  generalize (if s.handles.Has .socket ∨ s.handles.Has .recvThread then
    s.controlStreamStop a.stop else s) = t at hstopped ⊢
  obtain ⟨r, hr, hlaw, hend⟩ : ∃ r,
      (if !a.keyValid then some (t, -1) else startResources t a) = some r ∧
        StartsLawfully lost' a r := by
    split
    · exact ⟨_, rfl, startsLawfully_of_failed hstopped (by decide)⟩
    · exact startResources_lawful hstopped
  refine ⟨r, hr, hlaw, kept_of_keeps hend ?_, hend.astray ▸ hsame⟩
  split
  · exact .inr (.inl rfl)
  · exact .inl rfl

theorem Kept.call (h : Kept s) (c : LifecycleCall) :
    ∃ t, s.call c = some t ∧ Kept t ∧
      (c.Joins → t.handles.astray = s.handles.astray) := by
  cases c with
  | start a =>
      obtain ⟨r, hr, -, hkept, hsame⟩ := h.start a
      exact ⟨r.1, by rw [Lifecycle.call, hr]; rfl, hkept, hsame⟩
  | stop b =>
      obtain ⟨kinds, hkeeps, hinput⟩ := h.keeps
      obtain ⟨lost', hstopped, hsame⟩ := keeps_controlStreamStop hkeeps hinput b
      exact ⟨_, rfl, kept_of_keeps hstopped (.inl rfl),
        fun hjoins => hstopped.astray.trans (hsame hjoins)⟩
  | abort =>
      refine ⟨_, rfl, ⟨h.sound.freeHeld (by decide), ?_⟩, fun _ => astray_freeHeld⟩
      have hhas : ∀ k, s.controlStreamAbort.handles.Has k ↔ k ≠ .socket ∧ s.handles.Has k :=
        fun k => has_freeHeld
      rcases h.phase with hnone | hall | haborted
      · exact .inl fun k hno => hnone k ((hhas k).mp hno).2
      · exact .inr (.inr fun k => (hhas k).trans (and_iff_left (hall k)))
      · refine .inr (.inr fun k => (hhas k).trans ?_)
        rw [haborted k, and_self_iff]
  | threadEnds r hthread =>
      obtain ⟨hslots, hastray⟩ := @expire_table _ _ s.handles r
      refine ⟨_, rfl, ⟨h.sound.expire hthread, ?_⟩, fun _ => hastray⟩
      have hhas : ∀ k, (s.handles.expire r).Has k ↔ s.handles.Has k := fun k => by
        rw [Has, hslots, Has]
      simp only [hhas]
      exact h.phase

theorem Kept.run (h : Kept s) (calls : List LifecycleCall) :
    ∃ t, calls.foldlM Lifecycle.call s = some t ∧ Kept t ∧
      ((∀ c ∈ calls, c.Joins) → t.handles.astray = s.handles.astray) := by
  induction calls generalizing s with
  | nil => exact ⟨s, rfl, h, fun _ => rfl⟩
  | cons c calls ih =>
      obtain ⟨t, hcall, hkept, hsame⟩ := h.call c
      obtain ⟨u, hrun, hu, hjoined⟩ := ih hkept
      refine ⟨u, ?_, hu, fun hjoins => ?_⟩
      · rw [List.foldlM_cons, hcall]
        exact hrun
      · rw [hjoined fun d hd => hjoins d (List.mem_cons_of_mem _ hd)]
        exact hsame (hjoins c List.mem_cons_self)

theorem kept_initial (peer : ServerPeer) : Kept (.initial peer) where
  sound := sound_empty
  phase := .inl fun _ => Bool.noConfusion

end MoonlightPsp.Control
