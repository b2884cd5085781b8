import MoonlightPsp.RtpFec.Order

/-!
# The FEC layer: the queue between calls

Between two calls the queue has packets of the frame after the current one only,
and only while the current one is open.  A call may end the current frame for a
packet of a later frame and look at the queue afterwards; if the packets in the
queue are not of that later frame, they are left behind.
-/

namespace MoonlightPsp.RtpFec

open SerialNumber

section

variable {base : UInt32} {Q : Packet → Prop} {n : ℕ}

/-- The queue between two calls. -/
def Settled (base : UInt32) (s : Fec) : Prop :=
  s.deferred = [] ∨ s.frameSubmitted = false ∧ ∀ q ∈ s.deferred,
    position base (packetFrameIndex q) = position base s.currentFrame + 1

/-- A packet beyond the next frame arrives while packets are put aside, and the
current frame is not one that it has to wait for. -/
def Jumps (env : FecEnv) (s : Fec) (packet : Packet) : Prop :=
  ∃ h, screenPacket env.config s.currentFrame packet = .taken h ∧
    s.deferred ≠ [] ∧ 1 < deferSpan s h.frameIndex ∧
      ¬(h.frameIndex > s.currentFrame ∧
        currentFrameNeedsCabacDefer env.config s)

/-- The queue is of one frame, which the current one is not beyond. -/
structure Uniform (base : UInt32) (n : ℕ) (s : Fec) : Prop where
  current : s.currentFrame ≠ noFrame → position base s.currentFrame ≤ n
  queue : ∀ q ∈ s.deferred, position base (packetFrameIndex q) = n

theorem Uniform.setDeferred {s : Fec} (h : Uniform base n s)
    {l : List Packet} (hl : ∀ q ∈ l, q ∈ s.deferred) :
    Uniform base n (s.setDeferred l) :=
  ⟨h.current, fun q hq => h.queue q (hl q hq)⟩

/-- A property of the state and the packets in hand that a call keeps as long as
it leaves no packet behind.  Besides the packet that arrived, a packet that is
replayed is in hand.  The flag is set once the current frame was ended for the
packet that arrived. -/
structure KeptWithCare (base : UInt32) (Q : Packet → Prop) (env : FecEnv)
    (K : Bool → List Packet → Fec → Prop) : Prop where
  weaken : ∀ ended hand s, K false hand s → K ended hand s
  conclude : ∀ ended packet s, Ordered base Q s →
    (∀ q ∈ packet :: s.deferred, packetFrameIndex q ≠ s.currentFrame) →
      K ended [packet] s → K true [packet] (concludeFrame env s)
  drop : ∀ ended hand s, K ended hand s →
    K ended hand (dropSubmittedDeferredFramePackets s)
  pick : ∀ ended hand s front rest, s.deferred = front :: rest →
    K ended hand s → K ended (front :: hand) (s.setDeferred rest)
  defer : ∀ ended s packet, s.frameSubmitted = false → K ended [packet] s →
    K false [] (s.setDeferred (s.deferred ++ [packet]))
  refuse : ∀ ended hand s packet, Ordered base Q s → Q packet →
    s.currentFrame ≠ noFrame →
    position base s.currentFrame ≤ position base (packetFrameIndex packet) →
    position base (packetFrameIndex packet) ≤
      position base s.currentFrame + 1 →
    (∀ h, screenPacket env.config s.currentFrame packet ≠ .taken h) →
      K ended (packet :: hand) s → K ended hand s
  take : ∀ ended hand s packet h, Ordered base Q s → Q packet →
    Taken packet h → NotOlder base s h →
    (∀ q ∈ hand ++ s.deferred,
      position base h.frameIndex ≤ position base (packetFrameIndex q)) →
    (h.frameIndex ≠ s.currentFrame → ∀ q ∈ hand ++ s.deferred,
      packetFrameIndex q ≠ s.currentFrame) →
    K ended (packet :: hand) s →
      K false hand (placePacket env (enterFrame env s h) h packet).2

/-! ## Draining -/

theorem screenPacket_stale {c : FecConfig} {current : UInt32} {packet : Packet}
    {frame : UInt32} (hs : screenPacket c current packet = .stale frame) :
    ∃ h, parseFecHeader packet = some h ∧ h.frameIndex = frame ∧
      current ≠ noFrame ∧ delta h.frameIndex current < 0 := by
  simp only [screenPacket] at hs
  split at hs
  · cases hs
  rename_i h hparse
  split_ifs at hs with hblock hstale
  exact ⟨h, hparse, Screened.stale.inj hs, hstale⟩

/-- What a round of the loop leaves behind: the packet is taken, or refused
without a trace. -/
theorem replay_spec {env : FecEnv} {K : Bool → List Packet → Fec → Prop}
    (hrange : InRange base Q) (hK : KeptWithCare base Q env K)
    {ended : Bool} {hand : List Packet}
    (hhand : ∀ q ∈ hand, n ≤ position base (packetFrameIndex q)) {s : Fec}
    {front : Packet} {rest : List Packet} (hs : Ordered base Q s)
    (hu : Uniform base n s) (hq : s.deferred = front :: rest)
    (hks : K ended hand s) :
    let t := (replayPacket env (s.setDeferred rest) front).2
    Ordered base Q t ∧ Uniform base n t ∧ K ended hand t ∧
      (t.currentFrame ≠ noFrame ∧ position base t.currentFrame = n ∨
        t = s.setDeferred rest) := by
  have hsub : ∀ p ∈ rest, p ∈ s.deferred := fun p hp => by
    rw [hq]
    exact List.mem_cons_of_mem front hp
  have hfront : front ∈ s.deferred := by
    rw [hq]
    exact List.mem_cons_self
  have hsome : s.currentFrame ≠ noFrame := fun hno => by
    rw [hs.none hno] at hfront
    exact List.not_mem_nil hfront
  have hs' := hs.setDeferred hsub
  have hu' := hu.setDeferred hsub
  have hks' := hK.pick ended hand s front rest hq hks
  obtain ⟨hQ, -, hnear⟩ := hs.queue front hfront
  have hn := hu.queue front hfront
  have hle : position base s.currentFrame ≤
      position base (packetFrameIndex front) := hn ▸ hu.current hsome
  have hrefuse (hnot : ∀ h, screenPacket env.config s.currentFrame front ≠
      .taken h) : K ended hand (s.setDeferred rest) :=
    hK.refuse ended hand _ front hs' hQ hsome hle hnear hnot hks'
  rw [replayPacket]
  have hcurrent : (s.setDeferred rest).currentFrame = s.currentFrame := rfl
  rw [hcurrent]
  cases hscreen : screenPacket env.config s.currentFrame front with
  | bypass => exact ⟨hs', hu', hrefuse (by simp [hscreen]), .inr rfl⟩
  | junk => exact ⟨hs', hu', hrefuse (by simp [hscreen]), .inr rfl⟩
  | stale frame =>
      obtain ⟨h, hparse, -, -, hdelta⟩ := screenPacket_stale hscreen
      rw [delta_eq_position (hrange front h hQ hparse).1 (hs.current hsome)]
        at hdelta
      rw [(parseFecHeader_spec hparse).2.1] at hle
      omega
  | taken h =>
      have hh := (screenPacket_taken hscreen).1
      have hframe := (parseFecHeader_spec hh.parse).2.1
      have hold := notOlder_of_screened hs' hrange hQ hscreen
      obtain ⟨-, htcurrent, htqueue⟩ := take_spec env hs'.inv hh
      have hbehind : ∀ q ∈ hand ++ rest,
          n ≤ position base (packetFrameIndex q) := by
        intro q hmem
        rcases List.mem_append.mp hmem with hmem | hmem
        · exact hhand q hmem
        · exact (hu.queue q (hsub q hmem)).ge
      refine ⟨hs'.take env hrange hQ hh hold, ⟨?_, ?_⟩,
        hK.weaken ended hand _
          (hK.take ended hand _ front h hs' hQ hh hold ?_ ?_ hks'), .inl ?_⟩
      · rw [htcurrent, ← hframe, hn]
        exact fun _ => le_rfl
      · rw [htqueue]
        exact hu'.queue
      · intro q hmem
        rw [← hframe, hn]
        exact hbehind q hmem
      · intro hne q hmem heq
        have hlt : position base s.currentFrame < n := by
          refine lt_of_le_of_ne (hu.current hsome) fun hpos => hne ?_
          rw [← hframe]
          exact position_injective (hn.trans hpos.symm)
        have hge := hbehind q hmem
        rw [heq] at hge
        exact absurd hge (not_le_of_gt hlt)
      · rw [htcurrent, ← hframe]
        refine ⟨?_, hn⟩
        rw [hframe]
        exact (hrange front h hQ hh.parse).2

theorem drain_stops {env : FecEnv} {fuel : ℕ} {s t : Fec}
    (ht : drainDeferredCabacPackets env fuel s = some t) :
    t.deferred = [] ∨
      ∃ front rest, t.deferred = front :: rest ∧ ¬canReplay t front := by
  induction fuel generalizing s with
  | zero => exact nomatch ht
  | succ fuel ih =>
      rw [drainDeferredCabacPackets] at ht
      split at ht
      · rename_i hq
        obtain rfl := Option.some.inj ht
        exact .inl hq
      · rename_i front rest hq
        split at ht
        · exact ih ht
        · rename_i hstop
          obtain rfl := Option.some.inj ht
          exact .inr ⟨front, rest, hq, hstop⟩

/-- What a drain of a uniform queue keeps, and when it empties the queue. -/
theorem drain_withCare {env : FecEnv} {K : Bool → List Packet → Fec → Prop}
    (hrange : InRange base Q) (hK : KeptWithCare base Q env K)
    {ended : Bool} (hand : List Packet)
    (hhand : ∀ q ∈ hand, n ≤ position base (packetFrameIndex q)) {fuel : ℕ}
    {s t : Fec} (hs : Ordered base Q s) (hu : Uniform base n s)
    (hks : K ended hand s)
    (ht : drainDeferredCabacPackets env fuel s = some t) :
    Ordered base Q t ∧ Uniform base n t ∧ K ended hand t ∧ Settled base t ∧
      (s.frameSubmitted = true → t.deferred = []) := by
  have hreached : Ordered base Q t ∧ Uniform base n t ∧ K ended hand t ∧
      (s.frameSubmitted = true → t.frameSubmitted = true ∨
        t.currentFrame ≠ noFrame ∧ position base t.currentFrame = n) := by
    refine drain_invariant (fun u => Ordered base Q u ∧ Uniform base n u ∧
      K ended hand u ∧ (s.frameSubmitted = true → u.frameSubmitted = true ∨
        u.currentFrame ≠ noFrame ∧ position base u.currentFrame = n)) ?_ ?_
      ⟨hs, hu, hks, .inl⟩ ht
    · rintro u ⟨hs, hu, hks, hover⟩
      have hsub : ∀ p ∈ u.deferred.dropWhile fun p =>
          u.frameSubmitted && packetFrameIndex p == u.currentFrame,
          p ∈ u.deferred := fun p hp => (List.dropWhile_sublist _).mem hp
      exact ⟨hs.setDeferred hsub, hu.setDeferred hsub, hK.drop ended hand u hks,
        hover⟩
    · rintro u front rest ⟨hs, hu, hks, hover⟩ hq -
      obtain ⟨hs', hu', hks', hwhere⟩ :=
        replay_spec hrange hK hhand hs hu hq hks
      refine ⟨hs', hu', hks', fun hsub => ?_⟩
      rcases hwhere with hn | hsame
      · exact .inr hn
      · rw [hsame]
        exact hover hsub
  obtain ⟨hs', hu', hks', hover⟩ := hreached
  refine ⟨hs', hu', hks', ?_, fun hsub => ?_⟩
  · rcases drain_stops ht with hnil | ⟨front, rest, hq, hstop⟩
    · exact .inl hnil
    · simp only [canReplay, not_or, Bool.not_eq_true] at hstop
      obtain ⟨hsome, hopen, hne⟩ := hstop
      have hfront : front ∈ t.deferred := by
        rw [hq]
        exact List.mem_cons_self
      have hnear := (hs'.queue front hfront).2.2
      have hle := hu'.current hsome
      have hn := hu'.queue front hfront
      have hlt : position base t.currentFrame ≠ n := fun hpos =>
        hne (position_injective (hn.trans hpos.symm))
      refine .inr ⟨hopen, fun q hmem => ?_⟩
      rw [hu'.queue q hmem]
      omega
  · rcases drain_stops ht with hnil | ⟨front, rest, hq, hstop⟩
    · exact hnil
    · simp only [canReplay, not_or, Bool.not_eq_true] at hstop
      obtain ⟨-, hopen, hne⟩ := hstop
      have hn := hu'.queue front (by rw [hq]; exact List.mem_cons_self)
      rcases hover hsub with hsub' | ⟨-, hpos⟩
      · rw [hopen] at hsub'
        exact Bool.noConfusion hsub'
      · exact absurd (position_injective (hn.trans hpos.symm)) hne

/-- There is nothing to drain between two calls. -/
theorem drain_of_settled (env : FecEnv) (fuel : ℕ) {s : Fec}
    (hs : Ordered base Q s) (hset : Settled base s) :
    drainDeferredCabacPackets env (fuel + 1) s = some s := by
  rcases hset with hnil | ⟨hopen, hnext⟩
  · exact drain_of_nil env hnil (Nat.succ_pos fuel)
  · have hdrop : dropSubmittedDeferredFramePackets s = s := by
      have hwhile : (s.deferred.dropWhile fun p =>
          s.frameSubmitted && packetFrameIndex p == s.currentFrame) =
            s.deferred := by
        cases s.deferred with
        | nil => rfl
        | cons q l => simp [hopen]
      rw [dropSubmittedDeferredFramePackets, hwhile]
      rfl
    rw [drainDeferredCabacPackets]
    simp only [hdrop]
    split
    · rfl
    · rename_i front rest hq
      rw [if_neg]
      have hfront : front ∈ s.deferred := by
        rw [hq]
        exact List.mem_cons_self
      rintro (hno | hsub | hsame)
      · rw [hs.none hno] at hfront
        exact List.not_mem_nil hfront
      · rw [hopen] at hsub
        exact Bool.noConfusion hsub
      · have hpos := hnext front hfront
        rw [hsame] at hpos
        omega

/-! ## A call -/

/-- How far a packet that is not older is ahead of the current frame. -/
theorem deferSpan_eq {s : Fec} (hs : Ordered base Q s) {h : FecHeader}
    (hpos : position base h.frameIndex < 0x80000000)
    (hsome : s.currentFrame ≠ noFrame)
    (hlt : position base s.currentFrame < position base h.frameIndex) :
    deferSpan s h.frameIndex =
      position base h.frameIndex - position base s.currentFrame := by
  have hdelta := delta_eq_position hpos (hs.current hsome)
  rw [deferSpan, if_pos ⟨hsome, by omega⟩, toNat_sub_eq_position hlt.le]

theorem keptInOrder_true (env : FecEnv) :
    KeptInOrder base Q env fun _ => True where
  conclude := fun _ _ _ => trivial
  queue := fun _ _ _ => trivial
  late := fun _ _ _ _ => trivial
  take := fun _ _ _ _ _ _ _ _ => trivial

/-- The packets that wait between two calls are of the next frame. -/
theorem Settled.next {s : Fec} (h : Settled base s) :
    ∀ q ∈ s.deferred, position base (packetFrameIndex q) =
      position base s.currentFrame + 1 := by
  intro q hq
  exact (h.resolve_left (List.ne_nil_of_mem hq)).2 q hq

/-- A packet not beyond the frame that the queue is of is taken. -/
theorem take_withCare {env : FecEnv} {K : Bool → List Packet → Fec → Prop}
    (hK : KeptWithCare base Q env K) {packet : Packet} {h : FecHeader}
    (hQ : Q packet) (hh : Taken packet h) {ended : Bool} {s : Fec}
    (hs : Ordered base Q s) (hold : NotOlder base s h)
    (hnext : ∀ q ∈ s.deferred, position base (packetFrameIndex q) =
      position base s.currentFrame + 1)
    (hnear : s.deferred ≠ [] →
      position base h.frameIndex ≤ position base s.currentFrame + 1)
    (hks : K ended [packet] s) :
    let t := (placePacket env (enterFrame env s h) h packet).2
    K false [] t ∧ ∃ n, Uniform base n t := by
  obtain ⟨-, htcurrent, htqueue⟩ := take_spec env hs.inv hh
  refine ⟨hK.take ended [] s packet h hs hQ hh hold ?_ ?_ hks, ?_⟩
  · intro q hq
    rw [hnext q hq]
    exact hnear (List.ne_nil_of_mem hq)
  · intro _ q hq heq
    have hq' := hnext q hq
    rw [heq] at hq'
    omega
  · cases hqs : s.deferred with
    | nil =>
        refine ⟨position base h.frameIndex, ⟨?_, ?_⟩⟩
        · rw [htcurrent]
          exact fun _ => le_rfl
        · rw [htqueue, hqs]
          simp
    | cons q l =>
        have hne : s.deferred ≠ [] := by simp [hqs]
        refine ⟨position base s.currentFrame + 1, ⟨?_, ?_⟩⟩
        · rw [htcurrent]
          exact fun _ => hnear hne
        · rw [htqueue]
          exact hnext

/-- The packet in hand is put aside or taken.  Before it is taken, either the
queue is drained, or it is of the frame that the queue is of. -/
theorem transition_withCare {env : FecEnv} {K : Bool → List Packet → Fec → Prop}
    (hrange : InRange base Q) (hK : KeptWithCare base Q env K)
    {packet : Packet} {h : FecHeader} (hQ : Q packet) (hh : Taken packet h)
    {fuel : ℕ} {ended : Bool} {s : Fec} {r : Bool × Fec}
    (hs : Ordered base Q s) (hset : Settled base s) (hold : NotOlder base s h)
    (hjump : s.deferred ≠ [] → 1 < deferSpan s h.frameIndex →
      h.frameIndex > s.currentFrame ∧
        currentFrameNeedsCabacDefer env.config s)
    (hks : K ended [packet] s)
    (hr : processFrameTransition env h packet fuel s = some r) :
    Ordered base Q r.2 ∧ K false [] r.2 ∧ ∃ n, Uniform base n r.2 := by
  refine ⟨(processFrameTransition_inOrder hrange (keptInOrder_true env) hQ hh hs
    trivial hold hr).1, ?_⟩
  obtain ⟨hpos, hframe⟩ := hrange packet h hQ hh.parse
  have hindex := (parseFecHeader_spec hh.parse).2.1
  induction fuel generalizing ended s with
  | zero => exact nomatch hr
  | succ fuel ih =>
      have hnext := hset.next
      have hlt (hwaits : h.frameIndex ≠ s.currentFrame ∧
          h.frameIndex > s.currentFrame ∧
          currentFrameNeedsCabacDefer env.config s) :
          (s.currentFrame ≠ noFrame ∧ s.frameSubmitted = false) ∧
            position base s.currentFrame < position base h.frameIndex := by
        have hall := hwaits.2.2
        simp only [currentFrameNeedsCabacDefer, Bool.and_eq_true,
          bne_iff_ne, Bool.not_eq_true'] at hall
        have hsome := hall.1.1.1.1.2
        refine ⟨⟨hsome, hall.1.1.1.2⟩, lt_of_le_of_ne (hold hsome) fun heq => ?_⟩
        exact hwaits.1 (position_injective heq).symm
      cases passed_of_eq hr with
      | deferred hwaits hdefer =>
          obtain ⟨⟨hsome, hopen⟩, hlt⟩ := hlt hwaits
          obtain ⟨rfl, -, hspan⟩ := deferCabacNewerPacket_eq_some hdefer
          rw [deferSpan_eq hs hpos hsome hlt] at hspan
          refine ⟨hK.defer ended s packet hopen hks,
            ⟨position base s.currentFrame + 1, ⟨fun _ => Nat.le_succ _, ?_⟩⟩⟩
          intro q hq
          rcases List.mem_append.mp hq with hq | hq
          · exact hnext q hq
          · rw [List.mem_singleton.mp hq, hindex]
            omega
      | refused hwaits hrefused hdrain hr =>
          -- the queue has no room, so the current frame ends
          obtain ⟨-, hlt⟩ := hlt hwaits
          have hcurrent := concludeFrame_currentFrame env hs.inv
          have hqueue := concludeFrame_deferred env hs.inv
          have hconclude : K true [packet] (concludeFrame env s) := by
            refine hK.conclude ended packet s hs ?_ hks
            intro q hq
            rcases List.mem_cons.mp hq with rfl | hq
            · rw [hindex]
              exact hwaits.1
            · intro heq
              have hnear := hnext q hq
              rw [heq] at hnear
              omega
          obtain ⟨ht, hu, hkt, hsett, hempty⟩ := drain_withCare hrange hK
            (n := position base s.currentFrame + 1) [packet]
            (fun q hq => by
              rw [List.mem_singleton.mp hq, hindex]
              exact hlt)
            (hs.conclude env)
            ⟨fun _ => by rw [hcurrent]; exact Nat.le_succ _,
              by rw [hqueue]; exact hnext⟩ hconclude hdrain
          have hnil := hempty (concludeFrame_submitted env hs.inv hwaits.2.2)
          exact ih ht hsett (fun hne => (hu.current hne).trans hlt)
            (fun hne => absurd hnil hne) hkt hr
      | placed hgoes =>
          refine take_withCare hK hQ hh hs hold hset.next (fun hne => ?_) hks
          have hsome : s.currentFrame ≠ noFrame := fun hno =>
            hne (hs.none hno)
          by_contra hfar
          have hspan := deferSpan_eq hs hpos hsome (by omega)
          refine hgoes ⟨?_, hjump hne (by omega)⟩
          intro heq
          rw [heq] at hfar
          omega

/-- A call that does not jump leaves no packet behind. -/
theorem rtpFecAddPacket_withCare {env : FecEnv}
    {K : Bool → List Packet → Fec → Prop} (hrange : InRange base Q)
    (hK : KeptWithCare base Q env K) {packet : Packet} (hQ : Q packet)
    {s : Fec} {r : Bool × Fec} (hs : Ordered base Q s)
    (hset : Settled base s) (hjump : ¬Jumps env s packet)
    (htaken : ∀ h, screenPacket env.config s.currentFrame packet = .taken h →
      K false [packet] s)
    (hleft : (∀ h, screenPacket env.config s.currentFrame packet ≠ .taken h) →
      K false [] s ∧ ∀ frame, K false [] (s.emit (.late frame false)))
    (hr : rtpFecAddPacket env s packet = some r) :
    Ordered base Q r.2 ∧ Settled base r.2 ∧ K false [] r.2 := by
  obtain ⟨t, o, v, hfirst, harrive, hlast, rfl⟩ := exists_of_rtpFecAddPacket hr
  rw [drain_of_settled env _ hs hset] at hfirst
  obtain rfl := Option.some.inj hfirst
  have huniform : Settled base s → ∃ n, Uniform base n s := by
    rintro (hnil | ⟨-, hnext⟩)
    · exact ⟨position base s.currentFrame,
        ⟨fun _ => le_rfl, by simp [hnil]⟩⟩
    · exact ⟨position base s.currentFrame + 1,
        ⟨fun _ => Nat.le_succ _, hnext⟩⟩
  have ho : Ordered base Q o.2 ∧ K false [] o.2 ∧ ∃ n, Uniform base n o.2 := by
    cases arrived_of_eq harrive with
    | bypass hscreen =>
        exact ⟨hs, (hleft (by simp [hscreen])).1, huniform hset⟩
    | stale frame hscreen =>
        obtain ⟨n, hu⟩ := huniform hset
        exact ⟨hs.late _ _, (hleft (by simp [hscreen])).2 frame,
          n, hu.current, hu.queue⟩
    | junk hscreen =>
        exact ⟨hs, (hleft (by simp [hscreen])).1, huniform hset⟩
    | taken h hscreen hpass =>
        refine transition_withCare hrange hK hQ
          (screenPacket_taken hscreen).1 hs hset
          (notOlder_of_screened hs hrange hQ hscreen) ?_
          (htaken h hscreen) hpass
        intro hne hspan
        by_contra hnot
        exact hjump ⟨h, hscreen, hne, hspan, hnot⟩
  obtain ⟨hs', hks', n, hu⟩ := ho
  obtain ⟨hv, -, hkv, hsetv, -⟩ := drain_withCare hrange hK
    (n := n) [] (by simp) hs' hu hks' hlast
  exact ⟨hv, hsetv, hkv⟩

end

end MoonlightPsp.RtpFec
