import MoonlightPsp.RtpFec.Delivery

/-!
# The FEC layer: from the host to reassembly

What the host sends of a frame in one block arrives, in any order and with losses that
the parity packets make up for, and reassembly receives the data packets.
-/

namespace MoonlightPsp.RtpFec

open ReedSolomon SerialNumber

variable {env : FecEnv} {s t : Fec} {packet : Packet} {h : FecHeader} {F : SentFrame}
  {hpos : 0 < F.dataPkts} {htotal : F.totalPkts ≤ fecMaxPackets} {start : List FecEvent}

/-! ## The checks -/

/-- A header whose numbers pass the checks. -/
structure Admitted (c : FecConfig) (h : FecHeader) : Prop where
  data_pos : 0 < h.dataPkts
  data_le : h.dataPkts ≤ fecMaxReasonableDataPackets c
  total_le : h.totalPkts ≤ fecMaxPackets
  index_lt : h.fecIndex < h.totalPkts

theorem SentFrame.FitsLayer.admitted {c : FecConfig} (hfits : F.FitsLayer c)
    (hpos : 0 < F.dataPkts) {i : ℕ} (hi : i < F.totalPkts) : Admitted c (F.header i) :=
  ⟨hpos, hfits.data_le, hfits.total_le, hi⟩

/-- A packet of a frame that is not older than the current one, and not too far ahead,
is taken. -/
theorem screenPacket_of_admitted {c : FecConfig} {current : UInt32}
    (hparse : parseFecHeader packet = some h) (hadmitted : Admitted c h)
    (hnear : current = noFrame ∨
      0 ≤ delta h.frameIndex current ∧ delta h.frameIndex current ≤ 1000) :
    screenPacket c current packet = .taken h := by
  obtain ⟨hdata, hle, htotal, hindex⟩ := hadmitted
  obtain ⟨-, -, hsum, -, -⟩ := parseFecHeader_spec hparse
  have hblock := fecBlockNum_lt hparse
  simp only [screenPacket, hparse]
  rw [if_neg (by omega), if_neg, if_neg, if_neg (by omega), if_neg (by omega),
    if_neg (by omega)]
  · rintro ⟨hcurrent, hfar⟩
    have := hnear.resolve_left hcurrent
    omega
  · rintro ⟨hcurrent, hold⟩
    have := hnear.resolve_left hcurrent
    omega

/-! ## Frames that are not this one -/

theorem endings_of_concluded (ht : Concluded s t) :
    ∃ new, t.out = s.out ++ new ∧ ∀ f, f ≠ s.currentFrame → endings f new = [] := by
  obtain ⟨quiet, fate, hout, hquiet, hend⟩ := ht.out
  refine ⟨quiet ++ [fate], by rw [hout, List.append_assoc], ?_⟩
  intro f hf
  rw [endings_append, endings_of_isQuiet hquiet, List.nil_append]
  cases hend with
  | dropped reason missing requests => simp [endings, FecEvent.ends, hf.symm]
  | submitted sub hframe => simp [endings, FecEvent.ends, hframe, hf.symm]

theorem concludeFrame_endings (env : FecEnv) (hs : FecInv s) :
    ∃ new, (concludeFrame env s).out = s.out ++ new ∧
      ∀ f, f ≠ s.currentFrame → endings f new = [] := by
  rw [concludeFrame]
  split
  · rename_i hguard
    exact endings_of_concluded (hs.concluded env (.inl hguard.2.2))
  · exact ⟨[], (List.append_nil _).symm, fun _ _ => rfl⟩

theorem placePacket_endings (env : FecEnv) (hs : FecInv s) (hh : Taken packet h) :
    ∃ new, (placePacket env s h packet).2.out = s.out ++ new ∧
      ∀ f, f ≠ s.currentFrame → endings f new = [] := by
  have hinv := fecInv_step (.register hh) hs
  have hcurrent : (registerBlock s h).currentFrame = s.currentFrame := by
    rw [registerBlock]
    split
    · rfl
    · rfl
  rw [placePacket]
  split
  · exact ⟨[], by rw [registerBlock_out, List.append_nil], fun _ _ => rfl⟩
  rename_i index hslot
  have hsizes := storePacket_sizes (registerBlock s h) h index packet
  have hsome := storePacket_isSome (registerBlock s h) h index packet
  have hstored : ∃ new, (storePacket (registerBlock s h) h index packet).out =
      s.out ++ new ∧ ∀ f, endings f new = [] := by
    by_cases hfull : ((registerBlock s h).slots index).isSome
    · rw [storePacket_of_isSome h packet hfull, registerBlock_out]
      exact ⟨[], (List.append_nil _).symm, fun _ => rfl⟩
    · rw [(storePacket_of_isNone h packet hfull).2.2.2, registerBlock_out]
      exact ⟨_, rfl, fun _ => rfl⟩
  obtain ⟨stored, hout, hstored⟩ := hstored
  simp only [submitIfReady]
  split
  · obtain ⟨new, hnew, hends⟩ := endings_of_concluded
      ((fecInv_storePacket hinv hh hslot).concluded env (.inr ⟨index, hsome⟩))
    refine ⟨stored ++ new, by rw [hnew, hout, List.append_assoc], ?_⟩
    intro f hf
    rw [endings_append, hstored, List.nil_append]
    apply hends
    rwa [hsizes.currentFrame, hcurrent]
  · exact ⟨stored, hout, fun f _ => hstored f⟩

/-! ## While the frame comes in -/

/-- A frame that is newer than the current one, by no more than the layer accepts. -/
def IsNext (frame current : UInt32) : Prop :=
  current = noFrame ∨ (0 < delta frame current ∧ delta frame current ≤ 1000)

/-- Since the event list was `start` the packets with these indices have come. -/
structure Receiving (F : SentFrame) (hpos : 0 < F.dataPkts)
    (htotal : F.totalPkts ≤ fecMaxPackets) (start : List FecEvent) (seen : Finset ℕ)
    (s : Fec) : Prop where
  undisturbed : Undisturbed s
  held : Held F hpos htotal s
  progress : Progress F start s
  slots : ∀ i ∈ seen, (s.slots i).isSome

theorem delta_succ (frame : UInt32) : delta (frame + 1) frame = 1 := by
  have hone : frame + 1 - frame = 1 := by
    rw [UInt32.add_comm]
    exact UInt32.add_sub_cancel 1 frame
  rw [delta, hone]
  rfl

theorem delta_self (frame : UInt32) : delta frame frame = 0 := by
  simp [delta]

/-- The first packet that comes makes the frame the current one. -/
theorem receiving_first (hF : F.WellFormed) (hfits : F.FitsLayer env.config)
    (hcavlc : fecStreamIsCabac env.config = false) (hs : Undisturbed s)
    (hnext : IsNext F.frameIndex s.currentFrame) {i : ℕ} (hi : i < F.totalPkts) :
    ∃ t, rtpFecAddPacket env s (F.packets i) = some (true, t) ∧
      Receiving F hpos htotal s.out {i} t := by
  have hne : F.frameIndex ≠ s.currentFrame := by
    intro heq
    rcases hnext with hnone | ⟨hlater, -⟩
    · exact hfits.frameIndex (heq.trans hnone)
    · rw [heq, delta_self] at hlater
      exact absurd hlater (lt_irrefl 0)
  have hscreen : screenPacket env.config s.currentFrame (F.packets i) =
      .taken (F.header i) := by
    apply screenPacket_of_admitted (hF.header i hi) (hfits.admitted hpos hi)
    exact hnext.imp id fun h => ⟨h.1.le, h.2⟩
  have henter : enterFrame env s (F.header i) =
      openFrame (concludeFrame env s) (F.header i) := by
    rw [enterFrame]
    exact if_pos hne
  obtain ⟨new, hout, hends⟩ := concludeFrame_endings env hs.inv
  have hheld : Held F hpos htotal (openFrame (concludeFrame env s) (F.header i)) :=
    held_openFrame hF hi _
  have hprogress : Progress F s.out (openFrame (concludeFrame env s) (F.header i)) := by
    refine ⟨new ++ [.becameCurrent F.frameIndex], ?_, ?_⟩
    · rw [← List.append_assoc, ← hout]
      rfl
    · show endings _ _ = []
      rw [endings_append, hends _ hne]
      rfl
  have hrs : Tracked (openFrame (concludeFrame env s) (F.header i)).rs false := by
    show Tracked (concludeFrame env s).rs false
    rw [concludeFrame]
    split
    · exact attemptRecoveryAndSubmit_tracked env hs.rs
    · exact hs.rs
  obtain ⟨htrue, hheld', hprogress', -, hsome⟩ :=
    hheld.place hF hfits hrs hprogress hi
  obtain ⟨r, hr, hr'⟩ := hs.call hcavlc (F.packets i)
  rw [rtpFecAddPacket_of_taken hcavlc hs hscreen, henter] at hr ⊢
  obtain rfl := Option.some.inj hr
  refine ⟨_, congrArg some (Prod.ext htrue rfl), hr', hheld', hprogress', ?_⟩
  intro j hj
  obtain rfl := Finset.mem_singleton.mp hj
  exact hsome

/-- The packets after it are stored beside it. -/
theorem Receiving.call {seen : Finset ℕ} (hs : Receiving F hpos htotal start seen s)
    (hF : F.WellFormed) (hfits : F.FitsLayer env.config)
    (hcavlc : fecStreamIsCabac env.config = false) {i : ℕ} (hi : i < F.totalPkts) :
    ∃ t, rtpFecAddPacket env s (F.packets i) = some (true, t) ∧
      Receiving F hpos htotal start (insert i seen) t := by
  have hcurrent := hs.held.current.currentFrame
  have hscreen : screenPacket env.config s.currentFrame (F.packets i) =
      .taken (F.header i) := by
    apply screenPacket_of_admitted (hF.header i hi) (hfits.admitted hpos hi)
    right
    rw [hcurrent]
    show 0 ≤ delta F.frameIndex F.frameIndex ∧ delta F.frameIndex F.frameIndex ≤ 1000
    rw [delta_self]
    exact ⟨le_refl 0, by decide⟩
  have henter : enterFrame env s (F.header i) = s := by
    rw [enterFrame]
    exact if_neg fun hne => hne hcurrent.symm
  obtain ⟨htrue, hheld, hprogress, hkept, hsome⟩ :=
    hs.held.place hF hfits hs.undisturbed.rs hs.progress hi
  obtain ⟨r, hr, hr'⟩ := hs.undisturbed.call hcavlc (F.packets i)
  rw [rtpFecAddPacket_of_taken hcavlc hs.undisturbed hscreen, henter] at hr ⊢
  obtain rfl := Option.some.inj hr
  refine ⟨_, congrArg some (Prod.ext htrue rfl), hr', hheld, hprogress, ?_⟩
  intro j hj
  rcases Finset.mem_insert.mp hj with rfl | hj
  · exact hsome
  · exact hkept j (hs.slots j hj)

/-- What arrives of the frame: the packets with these indices, in this order. -/
def SentFrame.sends (F : SentFrame) (calls : List (FecEnv × ℕ)) : List (FecEnv × Packet) :=
  calls.map fun x => (x.1, F.packets x.2)

theorem Receiving.run {c : FecConfig} (hF : F.WellFormed) (hfits : F.FitsLayer c)
    (hcavlc : fecStreamIsCabac c = false) {calls : List (FecEnv × ℕ)}
    (hcalls : ∀ x ∈ calls, x.1.config = c ∧ x.2 < F.totalPkts) {seen : Finset ℕ}
    (hs : Receiving F hpos htotal start seen s) :
    ∃ t, s.receive (F.sends calls) = some (List.replicate calls.length true, t) ∧
      Receiving F hpos htotal start (seen ∪ (calls.map Prod.snd).toFinset) t := by
  induction calls generalizing s seen with
  | nil => exact ⟨s, rfl, by simpa using hs⟩
  | cons x rest ih =>
      obtain ⟨⟨rfl, hi⟩, hrest⟩ := List.forall_mem_cons.mp hcalls
      obtain ⟨u, hu, hcall⟩ := hs.call hF hfits hcavlc hi
      obtain ⟨t, ht, hrun⟩ := ih hrest hcall
      refine ⟨t, ?_, ?_⟩
      · rw [SentFrame.sends, List.map_cons, Fec.receive, hu]
        simp only [Option.bind_eq_bind, Option.bind_some, Option.pure_def]
        rw [show (rest.map fun x => (x.1, F.packets x.2)) = F.sends rest from rfl, ht]
        rfl
      · rw [List.map_cons, List.toFinset_cons, ← Finset.insert_union_comm]
        exact hrun

/-! ## The end of the frame -/

theorem Receiving.enough {seen : Finset ℕ} (hs : Receiving F hpos htotal start seen s)
    (henough : F.dataPkts ≤ seen.card) : F.dataPkts ≤ networkReceivedCount s := by
  apply henough.trans
  apply Finset.card_le_card
  intro i hi
  have hsome := hs.slots i hi
  rw [← hs.held.marked.slots] at hsome
  have hlt := hs.held.marked.lt i hsome
  have hmax := hs.held.collecting.shaped.total_le
  exact mem_networkReceived.mpr ⟨by omega, hsome⟩

theorem Progress.submitted (hs : Progress F start s) (hsubmitted : s.frameSubmitted = true) :
    ∃ new sub, s.out = start ++ new ∧ endings F.frameIndex new = [.submitted sub] ∧
      F.DeliveredBy sub := by
  obtain ⟨new, hout, hends⟩ := hs
  rw [if_pos hsubmitted] at hends
  obtain ⟨sub, hends, hdelivered⟩ := hends
  exact ⟨new, sub, hout, hends, hdelivered⟩

/-- When another frame begins, a frame with enough packets is delivered. -/
theorem Receiving.conclude {seen : Finset ℕ} (hs : Receiving F hpos htotal start seen s)
    (hF : F.WellFormed) (hfits : F.FitsLayer env.config)
    (henough : F.dataPkts ≤ seen.card) :
    ∃ new sub, (concludeFrame env s).out = start ++ new ∧
      endings F.frameIndex new = [.submitted sub] ∧ F.DeliveredBy sub := by
  have hcount := hs.enough henough
  rw [concludeFrame]
  by_cases hsubmitted : s.frameSubmitted = true
  · rw [if_neg fun h => absurd h.2.1 (by rw [hsubmitted]; exact Bool.false_ne_true)]
    exact hs.progress.submitted hsubmitted
  · have hopen : s.frameSubmitted = false := Bool.eq_false_of_not_eq_true hsubmitted
    have hguard : s.currentFrame ≠ noFrame ∧ (!s.frameSubmitted) = true ∧
        s.receivedCount > 0 := by
      refine ⟨?_, by rw [hopen]; rfl, ?_⟩
      · rw [hs.held.current.currentFrame]
        exact hfits.frameIndex
      · rw [hs.held.marked.count]
        omega
    rw [if_pos hguard]
    have hconcluded := attemptRecoveryAndSubmit_concluded env hs.held.collecting.shaped
      hs.held.collecting.hold
    exact (hs.progress.attempt hF hfits hs.held hs.undisturbed.rs hopen hcount).submitted
      hconcluded.submitted

theorem receive_concat {calls : List (FecEnv × Packet)} {results : List Bool}
    (hcalls : s.receive calls = some (results, t)) {r : Bool × Fec}
    (hlast : rtpFecAddPacket env t packet = some r) :
    s.receive (calls ++ [(env, packet)]) = some (results ++ [r.1], r.2) := by
  induction calls generalizing s results with
  | nil =>
      obtain ⟨rfl, rfl⟩ := Prod.mk.inj (Option.some.inj hcalls)
      simp [Fec.receive, hlast]
  | cons x rest ih =>
      obtain ⟨⟨b, u⟩, hu, hrest⟩ := Option.bind_eq_some_iff.mp hcalls
      obtain ⟨⟨more, v⟩, hv, hmore⟩ := Option.bind_eq_some_iff.mp hrest
      obtain ⟨rfl, rfl⟩ := Prod.mk.inj (Option.some.inj hmore)
      rw [List.cons_append, Fec.receive, hu]
      simp only [Option.bind_eq_bind, Option.bind_some, ih hv]
      rfl

/-- After enough packets of a frame, in any order and with any duplicates, and then a
packet of the next frame, reassembly has received the data packets of the frame, once. -/
theorem sentFrame_delivered {F : SentFrame} (hF : F.WellFormed) {c : FecConfig}
    (hcavlc : fecStreamIsCabac c = false) (hfits : F.FitsLayer c)
    {before : List FecInput} (hbefore : ∀ i ∈ before, i.IsPrivateCavlc) {s : Fec}
    (hs : Fec.initial.run before = some s) (hnext : IsNext F.frameIndex s.currentFrame)
    {calls : List (FecEnv × ℕ)}
    (hcalls : ∀ x ∈ calls, x.1.config = c ∧ x.2 < F.totalPkts)
    (henough : F.dataPkts ≤ (calls.map Prod.snd).toFinset.card)
    {env : FecEnv} (henv : env.config = c) {packet : Packet} {h : FecHeader}
    (hparse : parseFecHeader packet = some h) (hadmitted : Admitted c h)
    (hframe : h.frameIndex = F.frameIndex + 1) :
    ∃ consumed t new sub,
      s.receive (F.sends calls ++ [(env, packet)]) =
        some (List.replicate calls.length true ++ [consumed], t) ∧
      t.out = s.out ++ new ∧ endings F.frameIndex new = [.submitted sub] ∧
      F.DeliveredBy sub := by
  subst henv
  have hpos := hF.data_pos
  have htotal := hfits.total_le
  have hstart := run_undisturbed hbefore undisturbed_initial hs
  -- the first call opens the frame, the others fill it
  cases calls with
  | nil => exact absurd henough (Nat.not_le_of_lt hpos)
  | cons x rest =>
      obtain ⟨⟨hconfig, hi⟩, hrest⟩ := List.forall_mem_cons.mp hcalls
      obtain ⟨u, hu, hfirst⟩ : ∃ u, rtpFecAddPacket x.1 s (F.packets x.2) = some (true, u) ∧
          Receiving F hpos htotal s.out {x.2} u :=
        receiving_first hF (hconfig ▸ hfits) (hconfig ▸ hcavlc) hstart hnext hi
      obtain ⟨v, hv, hrun⟩ := hfirst.run hF hfits hcavlc hrest
      have hreceive : s.receive (F.sends (x :: rest)) =
          some (List.replicate (x :: rest).length true, v) := by
        rw [SentFrame.sends, List.map_cons, Fec.receive, hu]
        simp only [Option.bind_eq_bind, Option.bind_some, Option.pure_def]
        rw [show (rest.map fun x => (x.1, F.packets x.2)) = F.sends rest from rfl, hv]
        rfl
      rw [List.map_cons, List.toFinset_cons, Finset.insert_eq] at henough
      have hcurrent := hrun.held.current.currentFrame
      have hne : h.frameIndex ≠ v.currentFrame := by
        rw [hcurrent, hframe]
        intro heq
        have := UInt32.toNat_inj.mpr heq
        rw [UInt32.toNat_add] at this
        have hone : (1 : UInt32).toNat = 1 := rfl
        omega
      have hdelta : delta h.frameIndex v.currentFrame = 1 := by
        rw [hcurrent, hframe]
        exact delta_succ _
      have hscreen : screenPacket env.config v.currentFrame packet = .taken h := by
        apply screenPacket_of_admitted hparse hadmitted
        right
        rw [hdelta]
        exact ⟨by decide, by decide⟩
      have htaken := (screenPacket_taken hscreen).1
      obtain ⟨new, sub, hout, hends, hdelivered⟩ := hrun.conclude hF hfits henough
      have henter : enterFrame env v h = openFrame (concludeFrame env v) h := by
        rw [enterFrame, if_pos hne]
      have hinv := fecInv_steps (enterFrame_steps env hrun.undisturbed.inv htaken)
        hrun.undisturbed.inv
      obtain ⟨later, hlater, hquiet⟩ := placePacket_endings env hinv htaken
      have hother : F.frameIndex ≠ (enterFrame env v h).currentFrame := by
        rw [henter]
        show F.frameIndex ≠ h.frameIndex
        rwa [hcurrent, ne_comm] at hne
      refine ⟨_, _, new ++ ([.becameCurrent h.frameIndex] ++ later), sub,
        receive_concat hreceive
          (rtpFecAddPacket_of_taken hcavlc hrun.undisturbed hscreen), ?_, ?_, hdelivered⟩
      · rw [hlater, henter]
        show ((concludeFrame env v).out ++ [_]) ++ later = _
        rw [hout]
        simp only [List.append_assoc]
      · rw [endings_append, endings_append, hends, hquiet _ hother]
        rfl

/-! ## Sample frames -/

/-- The headers of a packet; `data` says which data packet a parity packet repeats. -/
def frameHeaders (frame : UInt32) (dataPkts fecPct index data : ℕ) : Packet :=
  let bare := barePacket (UInt16.ofNat index) frame 0 (UInt32.ofNat dataPkts)
    (UInt32.ofNat index) (UInt32.ofNat fecPct)
  let flags : UInt8 := 0x01 ||| (if data = 0 then 0x04 else 0) |||
    (if data + 1 = dataPkts then 0x02 else 0)
  (writeLe32 bare 12 (UInt32.ofNat data <<< 8)).set 20 flags

/-- A packet whose payload is all zeros. -/
def framePacket (frame : UInt32) (dataPkts fecPct index data padding : ℕ) : Packet :=
  frameHeaders frame dataPkts fecPct index data ++ List.replicate padding 0

theorem byteAt_append_zeros (p : Packet) (n t : ℕ) :
    byteAt (p ++ List.replicate n 0) t = byteAt p t := by
  rw [byteAt, byteAt]
  rcases Nat.lt_or_ge t p.length with hlt | hge
  · rw [List.getD_append _ _ _ _ hlt]
  · rw [List.getD_append_right _ _ _ _ hge, List.getD_eq_default _ _ hge,
      List.getD_eq_getElem?_getD, List.getElem?_getD_replicate_default_eq]

/-- A frame with packets of the smallest size.  With one data packet the parity packets
repeat it. -/
def sampleFrame (frame : UInt32) (dataPkts fecPct : ℕ) : SentFrame where
  frameIndex := frame
  firstSeq := 0
  firstSpi := 0
  dataPkts
  fecPct
  extension := false
  packetSize := 512
  packets := fun i =>
    if i < dataPkts then framePacket frame dataPkts fecPct i i 496
    else framePacket frame dataPkts fecPct i 0 500

/-- A stream of 100 kbit/s in such packets. -/
def slowEnv : FecEnv where
  config := ⟨0, false, 15, 100, 512⟩
  flags := fun _ => ⟨0, false, false⟩

/-- The headers of a frame are checked packet by packet. -/
theorem wellFormed_of_headers {F : SentFrame} (hpos : 0 < F.dataPkts)
    (hheaders : ∀ i < F.totalPkts,
      hasExtension (F.packets i) = F.extension ∧
      parseFecHeader (F.packets i) = some (F.header i) ∧
      (F.packets i).length =
        (if i < F.dataPkts then F.nvOffset + F.packetSize else F.symbolSize) ∧
      (i < F.dataPkts → byteAt (F.packets i) (F.nvOffset + 8) = F.flags i ∧
        fecNvStreamPacketIndex (F.packets i, F.nvOffset) = F.spi i))
    (hparity : ∀ r < F.parityPkts, ∀ t < F.symbolSize, ¬F.IsOwn t →
      bufOfPacket (F.packets (F.dataPkts + r)) t =
        reedSolomonEncode (reedSolomonNew .cleared F.dataPkts F.parityPkts).2
          F.shards F.totalPkts F.symbolSize (F.dataPkts + r) t) : F.WellFormed := by
  have hdata : ∀ i < F.dataPkts, i < F.totalPkts := fun i hi =>
    Nat.lt_of_lt_of_le hi (Nat.le_add_right _ _)
  constructor
  · exact hpos
  · intro i hi
    exact (hheaders i hi).1
  · intro i hi
    exact (hheaders i hi).2.1
  · intro i hi
    rw [(hheaders i (hdata i hi)).2.2.1, if_pos hi]
  · intro i hi hge
    rw [(hheaders i hi).2.2.1, if_neg (Nat.not_lt_of_le hge)]
  · intro i hi
    exact ((hheaders i (hdata i hi)).2.2.2 hi).1
  · intro i hi
    exact ((hheaders i (hdata i hi)).2.2.2 hi).2
  · exact hparity

theorem sampleFrame_wellFormed_parity : (sampleFrame 1 1 100).WellFormed := by
  apply wellFormed_of_headers
  · decide
  · decide +kernel
  · intro r hr t ht hown
    obtain rfl : r = 0 := Nat.lt_one_iff.mp hr
    obtain ⟨-, hconfigured⟩ := reedSolomonNew_configured .cleared
      (show 1 ≤ 1 from le_refl 1) (show 1 ≤ 1 from le_refl 1) (by decide)
    have hencode := (reedSolomonEncode_spec hconfigured (sampleFrame 1 1 100).shards
      (sampleFrame 1 1 100).symbolSize).2 0 Nat.one_pos t ht
    have hentry : cauchyParity 1 1 (0 * 1 + 0) = 1 := by decide
    rw [Finset.sum_range_one, hentry, one_mul] at hencode
    have hrepeats : ∀ t < 28, t < 12 ∨ (16 ≤ t ∧ t < 20) ∨ (22 ≤ t ∧ t < 28) ∨
        byteAt (frameHeaders 1 1 100 1 0) t = byteAt (frameHeaders 1 1 100 0 0) t := by
      decide +kernel
    have hoffset : (sampleFrame 1 1 100).nvOffset = 12 := rfl
    simp only [SentFrame.IsOwn, hoffset] at hown
    have hsame : byteAt ((sampleFrame 1 1 100).packets 1) t =
        byteAt ((sampleFrame 1 1 100).packets 0) t := by
      show byteAt (frameHeaders 1 1 100 1 0 ++ _) t = byteAt (frameHeaders 1 1 100 0 0 ++ _) t
      rw [byteAt_append_zeros, byteAt_append_zeros]
      by_cases hlt : t < 28
      · rcases hrepeats t hlt with h | h | h | h
        · exact absurd (.inl h) hown
        · exact absurd (.inr (.inl h)) hown
        · exact absurd (.inr (.inr h)) hown
        · exact h
      · have hlength : ∀ i, (frameHeaders 1 1 100 i 0).length = 28 := fun _ => by
          simp [frameHeaders, barePacket, writeLe32]
        rw [byteAt_of_length_le (by rw [hlength]; omega),
          byteAt_of_length_le (by rw [hlength]; omega)]
    refine Eq.trans ?_ hencode.symm
    exact congrArg Gf.mk hsame

theorem sampleFrame_wellFormed_large : (sampleFrame 1 33 0).WellFormed := by
  apply wellFormed_of_headers
  · decide
  · decide +kernel
  · intro r hr
    exact absurd hr (Nat.not_lt_zero _)

theorem sampleFrame_wellFormed_unnumbered : (sampleFrame noFrame 1 0).WellFormed := by
  apply wellFormed_of_headers
  · decide
  · decide +kernel
  · intro r hr
    exact absurd hr (Nat.not_lt_zero _)

/-- A frame whose data packets come once each and in their order, and then a packet of
the next frame, from the start. -/
def wholeFrame (F : SentFrame) : List (FecEnv × Packet) :=
  F.sends ((List.range F.dataPkts).map fun i => (slowEnv, i)) ++
    [(slowEnv, barePacket 0 (F.frameIndex + 1) 0 1 0 0)]

/-- What became of the frame then. -/
def wholeFrameEndings (F : SentFrame) : Option (List FecEvent) :=
  (Fec.initial.receive (wholeFrame F)).map fun r => endings F.frameIndex r.2.out

/-- Of a frame with more data packets than the layer takes for reasonable, and of one
with the index that stands for no frame, nothing is delivered. -/
theorem sentFrame_not_delivered :
    ((sampleFrame 1 33 0).WellFormed ∧ (sampleFrame 1 33 0).frameIndex ≠ noFrame ∧
      (sampleFrame 1 33 0).totalPkts ≤ fecMaxPackets ∧
      (sampleFrame 1 33 0).packetSize = fecConfiguredPacketSize slowEnv.config ∧
      fecStreamIsCabac slowEnv.config = false ∧
      wholeFrameEndings (sampleFrame 1 33 0) = some []) ∧
    ((sampleFrame noFrame 1 0).WellFormed ∧
      (sampleFrame noFrame 1 0).dataPkts ≤ fecMaxReasonableDataPackets slowEnv.config ∧
      (sampleFrame noFrame 1 0).totalPkts ≤ fecMaxPackets ∧
      (sampleFrame noFrame 1 0).packetSize = fecConfiguredPacketSize slowEnv.config ∧
      wholeFrameEndings (sampleFrame noFrame 1 0) = some []) := by
  have hempty : ∀ {o : Option (List FecEvent)}, o.map List.isEmpty = some true →
      o = some [] := by
    intro o ho
    obtain ⟨l, rfl, hl⟩ := Option.map_eq_some_iff.mp ho
    rw [List.isEmpty_iff.mp hl]
  refine ⟨⟨sampleFrame_wellFormed_large, by decide, by decide, by decide, by decide, ?_⟩,
    sampleFrame_wellFormed_unnumbered, by decide, by decide, by decide, ?_⟩
  · apply hempty
    decide +kernel
  · apply hempty
    decide +kernel

/-- The only data packet of a frame is lost, its parity packet comes twice. -/
theorem sentFrame_delivered_sample :
    ∃ consumed t new sub,
      Fec.initial.receive ((sampleFrame 1 1 100).sends [(slowEnv, 1), (slowEnv, 1)] ++
        [(slowEnv, barePacket 2 2 0 1 0 0)]) = some (List.replicate 2 true ++ [consumed], t) ∧
      t.out = Fec.initial.out ++ new ∧ endings 1 new = [.submitted sub] ∧
      (sampleFrame 1 1 100).DeliveredBy sub := by
  have hbefore : ∀ i ∈ ([] : List FecInput), i.IsPrivateCavlc := fun _ hi => nomatch hi
  have hcalls : ∀ x ∈ [(slowEnv, 1), (slowEnv, 1)],
      x.1.config = slowEnv.config ∧ x.2 < (sampleFrame 1 1 100).totalPkts := by
    intro x hx
    obtain rfl : x = (slowEnv, 1) := by simpa using hx
    exact ⟨rfl, by decide⟩
  have hparse : parseFecHeader (barePacket 2 2 0 1 0 0) = some ⟨2, 2, 1, 0, 0, 1, 0, 1⟩ := by
    decide +kernel
  exact sentFrame_delivered sampleFrame_wellFormed_parity (by decide)
    ⟨by decide, by decide, by decide, by decide⟩ hbefore rfl (.inl rfl) hcalls (by decide)
    rfl hparse ⟨by decide, by decide, by decide, by decide⟩ (by decide)

end MoonlightPsp.RtpFec
