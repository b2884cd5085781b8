import MoonlightPsp.RtpFec.Steps

/-!
# The FEC layer: the order of the frames

As long as the frame indexes stay in one half of their range, no frame becomes
current after a later one.  A packet that arrives is never older than the
current frame when it is taken, and the queue never runs ahead of the current
frame by more than one.
-/

namespace MoonlightPsp.RtpFec

open ReedSolomon SerialNumber

section

variable {base : UInt32} {Q : Packet → Prop}

/-- The packets that are let in have frame indexes in one half of the range,
none of which stands for no frame. -/
def InRange (base : UInt32) (Q : Packet → Prop) : Prop :=
  ∀ packet h, Q packet → parseFecHeader packet = some h →
    position base h.frameIndex < 0x80000000 ∧ h.frameIndex ≠ noFrame

/-- The current frame and the queue, when all packets are in range. -/
structure Ordered (base : UInt32) (Q : Packet → Prop) (s : Fec) : Prop where
  inv : FecInv s
  none : s.currentFrame = noFrame → s.deferred = []
  current : s.currentFrame ≠ noFrame →
    position base s.currentFrame < 0x80000000
  queue : ∀ q ∈ s.deferred, Q q ∧ (∃ h, Taken q h) ∧
    position base (packetFrameIndex q) ≤ position base s.currentFrame + 1

/-- A packet is not older than the current frame. -/
def NotOlder (base : UInt32) (s : Fec) (h : FecHeader) : Prop :=
  s.currentFrame ≠ noFrame →
    position base s.currentFrame ≤ position base h.frameIndex

theorem Ordered.setDeferred {s : Fec} (hs : Ordered base Q s)
    {q : List Packet} (hq : ∀ p ∈ q, p ∈ s.deferred) :
    Ordered base Q (s.setDeferred q) where
  inv := fecInv_step (.queue q) hs.inv
  none := fun h => List.eq_nil_iff_forall_not_mem.mpr fun p hp => by
    have hmem := hq p hp
    rw [hs.none h] at hmem
    exact List.not_mem_nil hmem
  current := hs.current
  queue := fun p hp => hs.queue p (hq p hp)

theorem Ordered.conclude (env : FecEnv) {s : Fec} (hs : Ordered base Q s) :
    Ordered base Q (concludeFrame env s) := by
  have hcurrent := concludeFrame_currentFrame env hs.inv
  have hqueue := concludeFrame_deferred env hs.inv
  refine ⟨fecInv_steps (concludeFrame_steps env) hs.inv, ?_, ?_, ?_⟩
  · rw [hcurrent, hqueue]
    exact hs.none
  · rw [hcurrent]
    exact hs.current
  · rw [hcurrent, hqueue]
    exact hs.queue

theorem enterFrame_currentFrame (env : FecEnv) (s : Fec) (h : FecHeader) :
    (enterFrame env s h).currentFrame = h.frameIndex := by
  rw [enterFrame]
  split
  · rfl
  · rename_i hsame
    exact (not_ne_iff.mp hsame).symm

theorem placePacket_currentFrame (env : FecEnv) {s : Fec} (hs : FecInv s)
    {packet : Packet} {h : FecHeader} (hh : Taken packet h) :
    (placePacket env s h packet).2.currentFrame = s.currentFrame := by
  have hregister : (registerBlock s h).currentFrame = s.currentFrame := by
    rw [registerBlock]
    split <;> rfl
  have hinv := fecInv_step (.register hh) hs
  rw [placePacket]
  split
  · exact hregister
  · rename_i index hslot
    have hstore := fecInv_storePacket hinv hh hslot
    have hsizes := storePacket_sizes (registerBlock s h) h index packet
    rw [submitIfReady]
    split
    · have hkept := storePacket_isSome (registerBlock s h) h index packet
      rw [(hstore.concluded env (.inr ⟨index, hkept⟩)).same.currentFrame,
        hsizes.currentFrame, hregister]
    · rw [hsizes.currentFrame, hregister]

/-- What taking a packet leaves behind. -/
theorem take_spec (env : FecEnv) {s : Fec} (hs : FecInv s) {packet : Packet}
    {h : FecHeader} (hh : Taken packet h) :
    let t := (placePacket env (enterFrame env s h) h packet).2
    FecInv t ∧ t.currentFrame = h.frameIndex ∧ t.deferred = s.deferred := by
  have henter := fecInv_steps (enterFrame_steps env hs hh) hs
  exact ⟨fecInv_steps (placePacket_steps env hh) henter,
    (placePacket_currentFrame env henter hh).trans
      (enterFrame_currentFrame env s h),
    (placePacket_deferred env henter hh).trans (enterFrame_deferred env hs h)⟩

theorem Ordered.take (env : FecEnv) {s : Fec} (hs : Ordered base Q s)
    (hrange : InRange base Q) {packet : Packet} {h : FecHeader}
    (hQ : Q packet) (hh : Taken packet h) (hold : NotOlder base s h) :
    Ordered base Q (placePacket env (enterFrame env s h) h packet).2 := by
  obtain ⟨hinv, hcurrent, hqueue⟩ := take_spec env hs.inv hh
  obtain ⟨hpos, hne⟩ := hrange packet h hQ hh.parse
  refine ⟨hinv, fun h => absurd (hcurrent ▸ h) hne, fun _ => hcurrent ▸ hpos,
    ?_⟩
  rw [hcurrent, hqueue]
  intro q hq
  obtain ⟨hQq, htaken, hle⟩ := hs.queue q hq
  have hsome : s.currentFrame ≠ noFrame := by
    intro hnone
    rw [hs.none hnone] at hq
    exact List.not_mem_nil hq
  have := hold hsome
  exact ⟨hQq, htaken, by omega⟩

/-- A packet that passes the checks is not older than the current frame. -/
theorem notOlder_of_screened {c : FecConfig} {s : Fec}
    (hs : Ordered base Q s) (hrange : InRange base Q) {packet : Packet}
    {h : FecHeader} (hQ : Q packet)
    (hscreen : screenPacket c s.currentFrame packet = .taken h) :
    NotOlder base s h := by
  intro hcurrent
  obtain ⟨hh, -, hdelta⟩ := screenPacket_taken hscreen
  have hpos := (hrange packet h hQ hh.parse).1
  rw [delta_eq_position hpos (hs.current hcurrent)] at hdelta
  have := hdelta hcurrent
  omega

theorem Ordered.late {s : Fec} (hs : Ordered base Q s) (frame : UInt32)
    (replayed : Bool) : Ordered base Q (s.emit (.late frame replayed)) :=
  ⟨fecInv_step (.late frame replayed) hs.inv, hs.none, hs.current, hs.queue⟩

/-! ## What every call keeps -/

/-- A property that everything keeps which a call does in order. -/
structure KeptInOrder (base : UInt32) (Q : Packet → Prop) (env : FecEnv)
    (K : Fec → Prop) : Prop where
  conclude : ∀ s, Ordered base Q s → K s → K (concludeFrame env s)
  queue : ∀ s q, K s → K (s.setDeferred q)
  late : ∀ s frame replayed, K s → K (s.emit (.late frame replayed))
  take : ∀ s packet h, Ordered base Q s → Q packet → Taken packet h →
    NotOlder base s h → K s →
      K (placePacket env (enterFrame env s h) h packet).2

/-- The current frame and the queue do not go beyond a frame. -/
structure Within (base : UInt32) (bound : ℕ) (s : Fec) : Prop where
  current : s.currentFrame ≠ noFrame →
    position base s.currentFrame ≤ bound
  queue : ∀ q ∈ s.deferred, position base (packetFrameIndex q) ≤ bound

theorem drain_inOrder {env : FecEnv} {K : Fec → Prop}
    (hrange : InRange base Q) (hK : KeptInOrder base Q env K) {n fuel : ℕ}
    {s t : Fec} (hs : Ordered base Q s) (hks : K s)
    (hbound : Within base n s)
    (ht : drainDeferredCabacPackets env fuel s = some t) :
    Ordered base Q t ∧ K t ∧ Within base n t := by
  refine drain_invariant
    (fun s => Ordered base Q s ∧ K s ∧ Within base n s) ?_ ?_
    ⟨hs, hks, hbound⟩ ht
  · rintro s ⟨hs, hks, hb⟩
    have hsub : ∀ p ∈ s.deferred.dropWhile fun p =>
        s.frameSubmitted && packetFrameIndex p == s.currentFrame,
        p ∈ s.deferred := fun p hp => (List.dropWhile_sublist _).mem hp
    exact ⟨hs.setDeferred hsub, hK.queue s _ hks, hb.current,
      fun q hq => hb.queue q (hsub q hq)⟩
  · rintro s front rest ⟨hs, hks, hb⟩ hq -
    have hsub : ∀ p ∈ rest, p ∈ s.deferred := fun p hp => by
      rw [hq]
      exact List.mem_cons_of_mem front hp
    have hfront : front ∈ s.deferred := by
      rw [hq]
      exact List.mem_cons_self
    have hs' := hs.setDeferred hsub
    have hks' := hK.queue s rest hks
    have hb' : Within base n (s.setDeferred rest) :=
      ⟨hb.current, fun q hq => hb.queue q (hsub q hq)⟩
    rw [replayPacket]
    split
    · exact ⟨hs', hks', hb'⟩
    · exact ⟨hs'.late _ _, hK.late _ _ _ hks', hb'.current, hb'.queue⟩
    · exact ⟨hs', hks', hb'⟩
    · rename_i h hscreen
      have hQ := (hs.queue front hfront).1
      have hh := (screenPacket_taken hscreen).1
      have hold := notOlder_of_screened hs' hrange hQ hscreen
      obtain ⟨-, hcurrent, hqueue⟩ := take_spec env hs'.inv hh
      refine ⟨hs'.take env hrange hQ hh hold,
        hK.take _ front h hs' hQ hh hold hks', ?_, ?_⟩
      · intro _
        rw [hcurrent, ← (parseFecHeader_spec hh.parse).2.1]
        exact hb.queue front hfront
      · rw [hqueue]
        exact hb'.queue

theorem processFrameTransition_inOrder {env : FecEnv} {K : Fec → Prop}
    (hrange : InRange base Q) (hK : KeptInOrder base Q env K)
    {packet : Packet} {h : FecHeader} (hQ : Q packet) (hh : Taken packet h)
    {fuel : ℕ} {s : Fec} {r : Bool × Fec} (hs : Ordered base Q s) (hks : K s)
    (hold : NotOlder base s h)
    (hr : processFrameTransition env h packet fuel s = some r) :
    Ordered base Q r.2 ∧ K r.2 := by
  induction fuel generalizing s with
  | zero => exact nomatch hr
  | succ fuel ih =>
      cases passed_of_eq hr with
      | deferred hwaits hdefer =>
          obtain ⟨rfl, -, hspan⟩ := deferCabacNewerPacket_eq_some hdefer
          refine ⟨⟨fecInv_step (.queue _) hs.inv, ?_, hs.current, ?_⟩,
            hK.queue _ _ hks⟩
          · intro hnone
            simp [deferSpan, show s.currentFrame = noFrame from hnone] at hspan
          · intro q hq
            rcases List.mem_append.mp hq with hq | hq
            · exact hs.queue q hq
            · obtain rfl := List.mem_singleton.mp hq
              refine ⟨hQ, ⟨h, hh⟩, ?_⟩
              rw [deferSpan] at hspan
              split at hspan
              · rename_i hcurrent
                rw [toNat_sub_eq_position (hold hcurrent.1)] at hspan
                rw [(parseFecHeader_spec hh.parse).2.1]
                simp only [Fec.setDeferred]
                omega
              · omega
      | refused hwaits hrefused hdrain hr =>
          have hcurrent := concludeFrame_currentFrame env hs.inv
          have hqueue := concludeFrame_deferred env hs.inv
          have hne : s.currentFrame ≠ noFrame := by
            have := hwaits.2.2
            simp only [currentFrameNeedsCabacDefer, Bool.and_eq_true,
              bne_iff_ne] at this
            exact this.1.1.1.1.2
          have hlt : position base s.currentFrame <
              position base h.frameIndex := by
            refine lt_of_le_of_ne (hold hne) fun heq => ?_
            exact hwaits.1 (position_injective heq).symm
          obtain ⟨ht, hkt, hbt⟩ := drain_inOrder hrange hK
            (hs.conclude env) (hK.conclude s hs hks)
            (n := position base h.frameIndex)
            ⟨fun _ => by rw [hcurrent]; omega, fun q hq => by
              have := (hs.queue q (hqueue ▸ hq)).2.2
              omega⟩ hdrain
          exact ih ht hkt hbt.current hr
      | placed hgoes =>
          exact ⟨hs.take env hrange hQ hh hold,
            hK.take s packet h hs hQ hh hold hks⟩

/-- What a call keeps, if all packets are in range. -/
theorem rtpFecAddPacket_inOrder {env : FecEnv} {K : Fec → Prop}
    (hrange : InRange base Q) (hK : KeptInOrder base Q env K)
    {packet : Packet} (hQ : Q packet) {s : Fec} {r : Bool × Fec}
    (hs : Ordered base Q s) (hks : K s)
    (hr : rtpFecAddPacket env s packet = some r) :
    Ordered base Q r.2 ∧ K r.2 := by
  have hdrain : ∀ {u v : Fec}, Ordered base Q u → K u →
      drainDeferredCabacPackets env (u.deferred.length + 1) u = some v →
        Ordered base Q v ∧ K v := by
    intro u v hu hku hv
    obtain ⟨hv, hkv, -⟩ := drain_inOrder hrange hK hu hku
      (n := position base u.currentFrame + 1)
      ⟨fun _ => Nat.le_succ _, fun q hq => (hu.queue q hq).2.2⟩ hv
    exact ⟨hv, hkv⟩
  obtain ⟨t, o, v, hfirst, harrive, hlast, rfl⟩ := exists_of_rtpFecAddPacket hr
  obtain ⟨ht, hkt⟩ := hdrain hs hks hfirst
  have ho : Ordered base Q o.2 ∧ K o.2 := by
    cases arrived_of_eq harrive with
    | bypass _ => exact ⟨ht, hkt⟩
    | stale frame _ => exact ⟨ht.late _ _, hK.late _ _ _ hkt⟩
    | junk _ => exact ⟨ht, hkt⟩
    | taken h hscreen hpass =>
        exact processFrameTransition_inOrder hrange hK hQ
          (screenPacket_taken hscreen).1 ht hkt
          (notOlder_of_screened ht hrange hQ hscreen) hpass
  exact hdrain ho.1 ho.2 hlast

/-! ## Runs between two resets -/

/-- A state right after `rtp_fec_init` or `rtp_fec_reset`. -/
def FreshStart (s : Fec) : Prop := s = Fec.initial ∨ ∃ u, s = rtpFecReset u

theorem Ordered.of_freshStart {s : Fec} (hs : FreshStart s) :
    Ordered base Q s := by
  rcases hs with rfl | ⟨u, rfl⟩
  · exact ⟨fecInv_initial, fun _ => rfl, fun h => absurd rfl h,
      fun q (hq : q ∈ []) => absurd hq List.not_mem_nil⟩
  · exact ⟨fecInv_reset, fun _ => rfl, fun h => absurd rfl h,
      fun q (hq : q ∈ []) => absurd hq List.not_mem_nil⟩

/-- Inputs without a reset, whose packets are let in. -/
def NoReset (Q : Packet → Prop) (inputs : List FecInput) : Prop :=
  ∀ i ∈ inputs, match i with
    | .packet _ packet => Q packet
    | .audio _ => True
    | .reset => False

/-- What a run without a reset keeps, if all packets are in range. -/
theorem run_inOrder {K : Fec → Prop} (hrange : InRange base Q)
    (hK : ∀ env, KeptInOrder base Q env K)
    (haudio : ∀ s rs, K s → K (s.setRs rs)) {inputs : List FecInput}
    (hinputs : NoReset Q inputs) {s : Fec} (hs : Ordered base Q s)
    (hks : K s) :
    ∃ t, s.run inputs = some t ∧ Ordered base Q t ∧ K t := by
  induction inputs generalizing s with
  | nil => exact ⟨s, rfl, hs, hks⟩
  | cons i rest ih =>
      have hrest : NoReset Q rest := fun j hj =>
        hinputs j (List.mem_cons_of_mem i hj)
      have hi := hinputs i List.mem_cons_self
      cases i with
      | packet env packet =>
          obtain ⟨r, hr, -⟩ := rtpFecAddPacket_spec env hs.inv packet
          obtain ⟨hs', hks'⟩ := rtpFecAddPacket_inOrder hrange (hK env) hi hs hks
            hr
          obtain ⟨t, ht, h⟩ := ih hrest hs' hks'
          exact ⟨t, by simp [Fec.run, Fec.step, hr, ht], h⟩
      | audio block =>
          have hs' : Ordered base Q
              (s.setRs (audioRtpFecComplete s.rs block).1) :=
            ⟨hs.inv.of_same (.setRs s _) rfl, hs.none, hs.current, hs.queue⟩
          obtain ⟨t, ht, h⟩ := ih hrest hs' (haudio s _ hks)
          exact ⟨t, by simpa [Fec.run, Fec.step] using ht, h⟩
      | reset => exact hi.elim

end

end MoonlightPsp.RtpFec
