import MoonlightPsp.Avc.Backend
import MoonlightPsp.Avc.SessionModes

/-!
# What the backend submits

Over every run of the backend, a unit without an IDR is submitted only behind one
with an IDR that the same session accepted, and only in the mode that its
parameter sets ask for.
-/

namespace MoonlightPsp.Avc

open EventLog Sps

/-! ## The law -/

/-- The last open of a session was for this profile, and these events came
behind it. -/
def OpenedSince (log : List BackendEvent) (mainProfile : Bool)
    (since : List BackendEvent) : Prop :=
  (∃ earlier, log = earlier ++ .sessionOpened mainProfile :: since) ∧
    ∀ m, .sessionOpened m ∉ since

/-- A unit with an IDR is among the events, with result 0. -/
def AcceptedIdr (since : List BackendEvent) : Prop :=
  ∃ s u, .submitted s u 0 ∈ since ∧ u.hasIdr = true

/-- The parameter sets are sound, and ask for this mode. -/
def AsksFor (unit : DecoderUnit) (mainProfile : Bool) : Prop :=
  ∃ format report, avcStreamFormat unit.sps = .ok format ∧
    avcPpsValidateMainEx unit.pps format.spsId = .ok report ∧
    (mainProfile = true ↔
      format.profile ≠ 66 ∨ report.entropyCodingMode = 1)

/-- What must be true of a submission and the events before it. -/
def SubmitLaw (before : List BackendEvent) : BackendEvent → Prop
  | .sessionOpened _ => True
  | .submitted session unit _ =>
      ∃ mainProfile since, OpenedSince before mainProfile since ∧
        session.ready = true ∧ session.mainProfile = mainProfile ∧
        AsksFor unit mainProfile ∧
        (unit.hasIdr = false → AcceptedIdr since)

theorem openedSince_open (log : List BackendEvent) (mainProfile : Bool) :
    OpenedSince (log ++ [.sessionOpened mainProfile]) mainProfile [] :=
  ⟨⟨log, rfl⟩, fun _ => List.not_mem_nil⟩

theorem OpenedSince.submitted {log since : List BackendEvent}
    {mainProfile : Bool} (h : OpenedSince log mainProfile since)
    (s : PspAvcSession) (u : DecoderUnit) (r : ℤ) :
    OpenedSince (log ++ [.submitted s u r]) mainProfile
      (since ++ [.submitted s u r]) := by
  obtain ⟨⟨earlier, rfl⟩, hlast⟩ := h
  refine ⟨⟨earlier, by simp⟩, fun m hm => ?_⟩
  rcases List.mem_append.mp hm with hbefore | hnow
  · exact hlast m hbefore
  · simp at hnow

theorem AcceptedIdr.append {since : List BackendEvent} (h : AcceptedIdr since)
    (later : List BackendEvent) : AcceptedIdr (since ++ later) := by
  obtain ⟨s, u, hmem, hidr⟩ := h
  exact ⟨s, u, List.mem_append_left _ hmem, hidr⟩

/-! ## The invariant -/

/-- The parameter sets that were taken are those in the caches of the input, and
the format and the entropy mode are theirs. -/
structure Sources (b : PspAvcBackend) : Prop where
  sps : b.sourceSps ≠ [] → b.sourceSps = b.input.cachedSps ∧
    ∃ f, avcStreamFormat (b.firmwareSps.take b.firmwareSpsSize) = .ok f ∧
      f.profile = b.format.profile ∧ f.spsId = b.format.spsId
  pps : b.sourcePps ≠ [] → b.sourceSps ≠ [] ∧
    b.sourcePps = b.input.cachedPps ∧
    ∃ report, avcPpsValidateMainEx b.sourcePps b.format.spsId = .ok report ∧
      b.sourceEntropyMode = report.entropyCodingMode

/-- What is true of the backend and the firmware at any time. -/
structure Kept (h : Hardware) : Prop where
  law : Always SubmitLaw h.log
  sound : Sound h.firmware
  input : h.backend.input.Inv
  firmwareSps : h.backend.firmwareSps.length = parameterSetSize
  empty : h.backend.avcc = none →
    h.backend.sourceSps = [] ∧ h.backend.sourcePps = []
  sources : Sources h.backend

/-- The stream was found to need the other mode. -/
def WrongMode (b : PspAvcBackend) : Prop :=
  b.sourceSps ≠ [] ∧ b.sourcePps ≠ [] ∧
    requestedMain b.format b.sourceEntropyMode ≠ b.mainProfile

/-- A backend that decodes: its session is open for its profile, and an IDR is
not waited for any more only if one was accepted, or given up for the mode. -/
structure Decoding (h : Hardware) : Prop where
  session : h.firmware.session.ready = true →
    h.firmware.session.mainProfile = h.backend.mainProfile
  opened : ∃ since, OpenedSince h.log h.backend.mainProfile since ∧
    (h.backend.input.needIdr = false →
      AcceptedIdr since ∨ WrongMode h.backend)

/-- The invariant of a run. -/
structure Sane (h : Hardware) : Prop extends Kept h where
  decoding : h.backend.avcc ≠ none → h.backend.failed = false → Decoding h

theorem zero_sources : Sources .zero :=
  ⟨fun h => absurd rfl h, fun h => absurd rfl h⟩

theorem sane_start : Sane .start where
  law := always_nil
  sound := sound_start
  input := ⟨⟨List.length_replicate, Nat.zero_le _⟩,
    ⟨List.length_replicate, Nat.zero_le _⟩⟩
  firmwareSps := List.length_replicate
  empty := fun _ => ⟨rfl, rfl⟩
  sources := zero_sources
  decoding := fun h => absurd rfl h

variable {h : Hardware} {b : PspAvcBackend}

/-- A backend that gave up is sane. -/
theorem Kept.fail (hk : Kept h) (r : ℤ) : Sane (h.fail r).2 where
  law := hk.law
  sound := hk.sound
  input := hk.input
  firmwareSps := hk.firmwareSps
  empty := hk.empty
  sources := ⟨hk.sources.sps, hk.sources.pps⟩
  decoding := fun _ hf => Bool.noConfusion hf

/-- Nothing is asked of a backend that gave up. -/
theorem Kept.sane_of_failed (hk : Kept h) (hfailed : h.backend.failed = true) :
    Sane h where
  toKept := hk
  decoding := fun _ hf => by
    rw [hfailed] at hf
    cases hf

/-- A session that was just opened for the profile waits for an IDR. -/
theorem Kept.sane_of_opened (hk : Kept h)
    (hmain : h.firmware.session.mainProfile = h.backend.mainProfile)
    (hsince : OpenedSince h.log h.backend.mainProfile [])
    (hneed : h.backend.input.needIdr = true) : Sane h where
  toKept := hk
  decoding := fun _ _ => ⟨fun _ => hmain, [], hsince, fun hno => by
    rw [hneed] at hno
    cases hno⟩

/-! ## The session -/

/-- An open that returns 0 leaves a session for the profile. -/
theorem open_mainProfile {w : Firmware} (hw : Sound w)
    {helper mainProfile : Bool} {a : OpenAnswers}
    (hzero : (pspAvcSessionOpen w helper mainProfile a).1 = 0) :
    (pspAvcSessionOpen w helper mainProfile a).2.session.mainProfile =
      mainProfile := by
  obtain ⟨-, ⟨-, hrefused⟩ | ⟨-, -, ⟨-, -, hmain, -⟩ | hneg⟩⟩ :=
    open_spec hw helper mainProfile a
  · rw [hrefused] at hzero
    exact absurd hzero (Int.negSucc_ne_zero 0)
  · exact hmain
  · omega

/-- And so does a switch. -/
theorem switchProfile_mainProfile {w : Firmware} (hw : Sound w)
    {helper mainProfile : Bool} {c : CloseAnswers} {a : OpenAnswers}
    (hzero : (pspAvcSessionSwitchProfile w helper mainProfile c a).1 = 0) :
    (pspAvcSessionSwitchProfile w helper mainProfile c a).2.session.mainProfile =
      mainProfile := by
  rw [pspAvcSessionSwitchProfile] at hzero ⊢
  split at hzero
  · exact absurd hzero (Int.negSucc_ne_zero 0)
  · rename_i hargs
    rw [if_neg hargs]
    dsimp only at hzero ⊢
    split at hzero
    · omega
    · rename_i hclosed
      rw [if_neg hclosed]
      exact open_mainProfile (close_spec hw false c).1 hzero

/-- The open of a session is noted. -/
theorem Kept.noteOpen (hk : Kept h) {mainProfile : Bool} {r : ℤ × Firmware}
    (hsound : Sound r.2)
    (hmain : r.1 = 0 → r.2.session.mainProfile = mainProfile) :
    Kept (h.noteOpen mainProfile r).2 ∧ (r.1 = 0 →
      (h.noteOpen mainProfile r).2.firmware.session.mainProfile = mainProfile ∧
        OpenedSince (h.noteOpen mainProfile r).2.log mainProfile []) := by
  rw [Hardware.noteOpen]
  dsimp only
  by_cases hzero : r.1 = 0
  · rw [if_pos hzero]
    exact ⟨⟨hk.law.snoc trivial, hsound, hk.input, hk.firmwareSps, hk.empty,
      hk.sources⟩, fun _ => ⟨hmain hzero, openedSince_open h.log mainProfile⟩⟩
  · rw [if_neg hzero]
    exact ⟨⟨hk.law, hsound, hk.input, hk.firmwareSps, hk.empty, hk.sources⟩,
      fun h => absurd h hzero⟩

theorem Kept.openSession (hk : Kept h) (helper mainProfile : Bool)
    (a : OpenAnswers) :
    let r := h.openSession helper mainProfile a
    Kept r.2 ∧ (r.1 = 0 → r.2.firmware.session.mainProfile = mainProfile ∧
      OpenedSince r.2.log mainProfile []) :=
  hk.noteOpen (open_spec hk.sound helper mainProfile a).1
    (open_mainProfile hk.sound)

theorem Kept.switchSession (hk : Kept h) (helper mainProfile : Bool)
    (c : CloseAnswers) (a : OpenAnswers) :
    let r := h.noteOpen mainProfile
      (pspAvcSessionSwitchProfile h.firmware helper mainProfile c a)
    Kept r.2 ∧ (r.1 = 0 → r.2.firmware.session.mainProfile = mainProfile ∧
      OpenedSince r.2.log mainProfile []) :=
  hk.noteOpen (sound_switchProfile hk.sound helper mainProfile c a)
    (switchProfile_mainProfile hk.sound)

theorem Kept.closeSession (hk : Kept h) (a : CloseAnswers) :
    let r := h.closeSession a
    Kept r.2 ∧ (r.1 = 0 → r.2.firmware.session = .zero) := by
  obtain ⟨hsound, hcase⟩ := close_spec hk.sound true a
  refine ⟨⟨hk.law, hsound, hk.input, hk.firmwareSps, hk.empty, hk.sources⟩,
    fun hzero => ?_⟩
  have hzero : (pspAvcSessionCloseInternal h.firmware true a).1 = 0 := hzero
  rcases hcase with ⟨-, -, hsession, -⟩ | ⟨-, hneg, -⟩
  · exact hsession
  · omega

/-- The backend is cleared behind a session that is closed. -/
theorem Kept.clear (hk : Kept h) (hclosed : h.firmware.session = .zero) :
    Sane h.clear where
  law := hk.law
  sound := hk.sound.of_same (by rw [hclosed]; rfl) rfl
  input := sane_start.input
  firmwareSps := sane_start.firmwareSps
  empty := sane_start.empty
  sources := zero_sources
  decoding := fun h => absurd rfl h

/-- The other parts of the backend may change as they like. -/
theorem Kept.of_backend (hk : Kept h) (hinput : b.input.Inv)
    (hlength : b.firmwareSps.length = parameterSetSize)
    (hempty : b.avcc = none → b.sourceSps = [] ∧ b.sourcePps = [])
    (hsources : Sources b) : Kept { h with backend := b } :=
  ⟨hk.law, hk.sound, hinput, hlength, hempty, hsources⟩

/-! ## `psp_avc_backend_open`, `psp_avc_backend_close` -/

theorem openBackend_sane (hk : Kept h) (hnone : h.backend.avcc = none)
    (width height : ℕ) (helper mainProfile : Bool) (a : BackendOpenAnswers) :
    Sane (openBackend h width height helper mainProfile a).2 := by
  obtain ⟨hsps, hpps⟩ := hk.empty hnone
  have hset : Kept { h with
      backend := h.backend.setUp width height helper mainProfile } :=
    hk.of_backend (avcStreamInputInit_inv false) hk.firmwareSps hk.empty
      ⟨fun hne => absurd hsps hne, fun hne => absurd hpps hne⟩
  obtain ⟨hopened, hzero⟩ := hset.openSession helper mainProfile a.session
  rw [openBackend]
  dsimp only
  split
  · exact ⟨hopened, fun hsome => absurd hnone hsome⟩
  · rename_i hok
    obtain ⟨hmain, hsince⟩ := hzero (not_not.mp hok)
    split
    · rename_i uid huid
      refine Kept.sane_of_opened (hopened.of_backend hopened.input
        hopened.firmwareSps (fun h => ?_)
        ⟨hopened.sources.sps, hopened.sources.pps⟩) hmain hsince rfl
      simp at h
    · obtain ⟨hclosed, hgone⟩ := hopened.closeSession a.cleanup
      split
      · exact ⟨hclosed, fun hsome => absurd hnone hsome⟩
      · rename_i hokClose
        exact hclosed.clear (hgone (not_not.mp hokClose))

theorem backendOpen_sane (hs : Sane h) (width height : ℕ) (helper : Bool)
    (mainProfile : ℤ) (a : BackendOpenAnswers) :
    Sane (pspAvcBackendOpen h width height helper mainProfile a).2 := by
  rw [pspAvcBackendOpen]
  split
  · exact hs
  · split
    · exact hs
    · rename_i hopens
      simp only [Bool.not_eq_true', Bool.not_eq_false, backendOpens,
        Bool.and_eq_true, Option.isNone_iff_eq_none] at hopens
      exact openBackend_sane hs.toKept hopens.1.1.2 width height helper _ a

theorem backendClose_sane (hs : Sane h) (a : CloseAnswers) (free : ℤ) :
    Sane (pspAvcBackendClose h a free).2 := by
  have hfailed := hs.toKept.fail 0
  obtain ⟨hclosed, hgone⟩ := hfailed.toKept.closeSession a
  have hgiven : Sane ((h.fail 0).2.closeSession a).2 :=
    hclosed.sane_of_failed rfl
  rw [pspAvcBackendClose]
  dsimp only
  split
  · exact hgiven
  · rename_i hok
    split
    · exact hgiven
    · exact hclosed.clear (hgone (not_not.mp hok))

/-! ## `psp_avc_backend_reset`, `psp_avc_backend_switch_profile` -/

theorem reset_sane (hs : Sane h) (c : CloseAnswers) (a : OpenAnswers) :
    Sane (pspAvcBackendReset h c a).2 := by
  rw [pspAvcBackendReset]
  split
  · exact hs
  · have hfailed := hs.toKept.fail 0
    obtain ⟨hclosed, -⟩ := hfailed.toKept.closeSession c
    dsimp only
    split
    · exact hclosed.sane_of_failed rfl
    · have hready : Kept { ((h.fail 0).2.closeSession c).2 with
          backend.input := avcStreamInputInvalidate h.backend.input } :=
        ⟨hclosed.law, hclosed.sound, ⟨hclosed.input.sps, hclosed.input.pps⟩,
          hclosed.firmwareSps, hclosed.empty,
          ⟨hclosed.sources.sps, hclosed.sources.pps⟩⟩
      obtain ⟨hopened, hzero⟩ := hready.openSession
        h.backend.baselineHelper h.backend.mainProfile a
      split
      · exact hopened.sane_of_failed rfl
      · rename_i hok
        obtain ⟨hmain, hsince⟩ := hzero (not_not.mp hok)
        exact Kept.sane_of_opened (hopened.of_backend hopened.input
          hopened.firmwareSps hopened.empty
          ⟨hopened.sources.sps, hopened.sources.pps⟩) hmain hsince rfl

theorem switchProfile_sane (hs : Sane h) (mainProfile : ℤ) (c : CloseAnswers)
    (a : OpenAnswers) : Sane (pspAvcBackendSwitchProfile h mainProfile c a).2 := by
  rw [pspAvcBackendSwitchProfile]
  split
  · exact hs
  · rename_i m hm
    dsimp only
    split
    · exact hs
    · obtain ⟨hk, hzero⟩ := hs.toKept.switchSession h.backend.baselineHelper m c a
      rw [switchBackend]
      dsimp only
      split
      · exact hk.fail _
      · rename_i hok
        obtain ⟨hmain, hsince⟩ := hzero (not_not.mp hok)
        exact Kept.sane_of_opened (hk.of_backend ⟨hk.input.sps, hk.input.pps⟩
          hk.firmwareSps hk.empty ⟨hk.sources.sps, hk.sources.pps⟩) hmain hsince
          rfl

/-! ## `psp_avc_backend_decode` -/

theorem gateUnit_dst (s : StreamInput) (dst : Option (List UInt8))
    (parsed : PacketizedAu) : (gateUnit s dst parsed).dst = dst := by
  rw [gateUnit]
  split_ifs <;> rfl

theorem takeUnit_dst {s : StreamInput} {src : List UInt8}
    {dst : Option (List UInt8)} {parsed : PacketizedAu} {r : Prepared}
    (hr : takeUnit s src dst parsed = some r) : r.dst = dst := by
  simp only [takeUnit, Option.bind_eq_bind, Option.bind_eq_some_iff] at hr
  obtain ⟨spsChanged, -, hr⟩ := hr
  split at hr
  · cases hr
    rfl
  · obtain ⟨ppsChanged, -, hr⟩ := Option.bind_eq_some_iff.mp hr
    split at hr
    · cases hr
      rfl
    · simp only [Option.bind_eq_some_iff] at hr
      obtain ⟨sps, -, pps, -, hr⟩ := hr
      cases hr
      exact gateUnit_dst _ _ _

/-- The arena stays. -/
theorem prepareUnit_dst {s : StreamInput} {src : Option (List UInt8)}
    {buffer : List UInt8} {r : Prepared}
    (hr : prepareUnit s src (some buffer) = some r) : r.dst ≠ none := by
  simp only [prepareUnit, Option.bind_eq_bind, Option.bind_eq_some_iff] at hr
  obtain ⟨⟨code, dst, parsed⟩, hcall, hr⟩ := hr
  have hdst : dst ≠ none := by
    cases src with
    | none =>
        cases hcall
        exact Option.some_ne_none _
    | some src =>
        rw [avcPacketize] at hcall
        obtain ⟨result, -, hcall⟩ := Option.bind_eq_some_iff.mp hcall
        cases hcall
        exact Option.some_ne_none _
  dsimp only at hr
  split at hr
  · cases hr
    exact hdst
  · rw [takeUnit_dst hr]
    exact hdst

/-- How the sequence parameter set of a unit leaves the backend. -/
structure TookSps (b : PspAvcBackend) (sps : List UInt8)
    (r : Bool × PspAvcBackend) : Prop where
  frame : ∃ fs n ss f, r.2 = { b with
    firmwareSps := fs
    firmwareSpsSize := n
    sourceSps := ss
    format := f }
  length : r.2.firmwareSps.length = parameterSetSize
  sources : Sources r.2
  taken : r.1 = true → r.2.sourceSps = sps
  same : b.sourceSps ≠ [] → r = (true, b)

/-- The buffer for the firmware, behind a call that wrote it. -/
theorem take_leaves {out dst dst' : List UInt8} {cap size : ℕ}
    (h : Leaves (some out) dst cap dst' size) :
    dst'.take size = out ∧ size ≤ dst.length := by
  have hsize : size = out.length := h.size
  have hout := h.output out rfl
  refine ⟨hsize ▸ hout, ?_⟩
  have hle := congrArg List.length hout
  rw [List.length_take, h.length] at hle
  omega

/-- A normalization that returns 0 has an output. -/
theorem normalizeOutcome_output {nal : List UInt8} {cap : ℕ}
    (h : (normalizeOutcome nal cap).code = 0) :
    ∃ out, (normalizeOutcome nal cap).output = some out := by
  rcases normalizeOutcome_cases nal cap with
    ⟨code, hneg, hcase⟩ | ⟨hcase, -⟩ | ⟨-, -, out, hcase, -⟩
  · rw [hcase] at h
    exact absurd h (Int.ne_of_lt hneg)
  · exact ⟨_, congrArg NormalizeOutcome.output hcase⟩
  · exact ⟨out, congrArg NormalizeOutcome.output hcase⟩

section Fresh

variable (hempty : b.sourceSps = [] ∧ b.sourcePps = [])

include hempty

/-- A new sequence parameter set that is refused. -/
theorem tookSps_refused {fs : List UInt8} (hfs : fs.length = parameterSetSize)
    (n : ℕ) (sps : List UInt8) : TookSps b sps (false, { b with
      firmwareSps := fs
      firmwareSpsSize := n }) where
  frame := ⟨fs, n, b.sourceSps, b.format, rfl⟩
  length := hfs
  sources := ⟨fun h => absurd hempty.1 h, fun h => absurd hempty.2 h⟩
  taken := fun h => Bool.noConfusion h
  same := fun h => absurd hempty.1 h

/-- A new sequence parameter set that is taken. -/
theorem tookSps_fresh {fs sps : List UInt8} {n : ℕ} {f f' : StreamFormat}
    (hfs : fs.length = parameterSetSize) (hsps : sps = b.input.cachedSps)
    (hformat : avcStreamFormat (fs.take n) = .ok f')
    (hprofile : f'.profile = f.profile) (hid : f'.spsId = f.spsId) :
    TookSps b sps (true, { b with
      firmwareSps := fs
      firmwareSpsSize := n
      sourceSps := sps
      format := f }) where
  frame := ⟨fs, n, sps, f, rfl⟩
  length := hfs
  sources := ⟨fun _ => ⟨hsps, f', hformat, hprofile, hid⟩,
    fun h => absurd hempty.2 h⟩
  taken := fun _ => rfl
  same := fun h => absurd hempty.1 h

theorem takeSps_fresh (hlength : b.firmwareSps.length = parameterSetSize)
    {sps : List UInt8} (hsps : sps = b.input.cachedSps) (hne : sps ≠ [])
    (hshort : sps.length ≤ parameterSetSize) :
    ∃ r, takeSps b sps = some r ∧ TookSps b sps r := by
  obtain ⟨n, hn, hshows⟩ := normalizeMain_shows false
    (Nat.le_refl sps.length) (Nat.le_of_eq hlength.symm)
    (fun h => Bool.noConfusion h)
  have hn1 := hshows.leaves.length.trans hlength
  rw [takeSps, if_neg (by omega), if_neg (fun h => hne (h.trans hempty.1))]
  simp only [hn, Option.bind_eq_bind, Option.bind_some]
  have hrefused := fun k => tookSps_refused hempty hn1 k sps
  by_cases hcode : n.code = 0
  · rw [if_neg (not_not.mpr hcode)]
    obtain ⟨out, hout⟩ := normalizeOutcome_output (hshows.code.symm.trans hcode)
    obtain ⟨htake, hsize⟩ := take_leaves (hout ▸ hshows.leaves)
    cases hformat : avcStreamFormat (n.dst.take n.dstSize) with
    | error code => exact ⟨_, rfl, hrefused _⟩
    | ok format =>
        dsimp only
        split
        · exact ⟨_, rfl, hrefused _⟩
        · split
          · rename_i hrefs
            have hinside : n.dstSize ≤ n.dst.length := by omega
            obtain ⟨l, hl, hlimited⟩ := limitRefs_shows true hinside
              (Nat.le_of_eq hn1.symm) (fun _ => rfl)
            have hl1 := hlimited.leaves.length.trans hn1
            simp only [hl, Option.bind_some]
            by_cases hcode' : l.code = 0
            · rw [if_neg (not_not.mpr hcode')]
              have hsome := hlimited.code.symm.trans hcode'
              cases hout' : (checkedOutcome (n.dst.take n.dstSize)
                  parameterSetSize).output with
              | none =>
                  rw [hout'] at hsome
                  exact absurd hsome (Int.negSucc_ne_zero 0)
              | some out' =>
                  obtain ⟨htake', -⟩ := take_leaves (hout' ▸ hlimited.leaves)
                  obtain ⟨before, hbefore⟩ := checkedOutcome_eq_some hout'
                  have hsame : format = before :=
                    Except.ok.inj (hformat.symm.trans hbefore.accepted)
                  have htwo := hbefore.original.1
                  rw [← hsame] at htwo
                  have hafter := hbefore.format (by omega)
                  rw [← htake', ← hsame] at hafter
                  exact ⟨_, rfl, tookSps_fresh hempty hl1 hsps hafter rfl rfl⟩
            · rw [if_pos hcode']
              exact ⟨_, rfl, tookSps_refused hempty hl1 _ sps⟩
          · exact ⟨_, rfl, tookSps_fresh hempty hn1 hsps hformat rfl rfl⟩
  · rw [if_pos hcode]
    exact ⟨_, rfl, hrefused _⟩

end Fresh

theorem takeSps_spec (hlength : b.firmwareSps.length = parameterSetSize)
    (hsources : Sources b) {sps : List UInt8}
    (hsps : sps = b.input.cachedSps) (hne : sps ≠ [])
    (hshort : sps.length ≤ parameterSetSize) :
    ∃ r, takeSps b sps = some r ∧ TookSps b sps r := by
  by_cases hold : b.sourceSps = []
  · have hpps : b.sourcePps = [] := by
      by_contra hpps
      exact (hsources.pps hpps).1 hold
    exact takeSps_fresh ⟨hold, hpps⟩ hlength hsps hne hshort
  · have hsame : sps = b.sourceSps := hsps.trans (hsources.sps hold).1.symm
    refine ⟨(true, b), ?_, ⟨⟨_, _, _, _, rfl⟩, hlength, hsources,
      fun _ => hsame.symm, fun _ => rfl⟩⟩
    rw [takeSps, if_neg (by omega), if_pos hsame]

/-- How the picture parameter set of a unit leaves the backend. -/
structure TookPps (b : PspAvcBackend) (pps : List UInt8)
    (r : Bool × PspAvcBackend) : Prop where
  frame : ∃ pp e, r.2 = { b with sourcePps := pp, sourceEntropyMode := e }
  sources : Sources r.2
  taken : r.1 = true → r.2.sourcePps = pps
  same : b.sourcePps ≠ [] → r = (true, b)

theorem takePps_spec (hsources : Sources b) (hsps : b.sourceSps ≠ [])
    {pps : List UInt8} (hpps : pps = b.input.cachedPps) (hne : pps ≠ [])
    (hshort : pps.length ≤ parameterSetSize) :
    TookPps b pps (takePps b pps) := by
  have hsame : b.sourcePps ≠ [] → pps = b.sourcePps := fun h =>
    hpps.trans (hsources.pps h).2.1.symm
  rw [takePps, if_neg (by omega)]
  split
  · rename_i hknown
    exact ⟨⟨_, _, rfl⟩, hsources, fun _ => (hknown.resolve_left hne).symm,
      fun _ => rfl⟩
  · rename_i hnew
    have hold : b.sourcePps = [] := by
      by_contra hold
      exact hnew (.inr (hsame hold))
    split
    · exact ⟨⟨_, _, rfl⟩, hsources, fun h => Bool.noConfusion h,
        fun h => absurd hold h⟩
    · rename_i report hreport
      exact ⟨⟨_, _, rfl⟩, ⟨hsources.sps, fun _ => ⟨hsps, hpps, report, hreport,
        rfl⟩⟩, fun _ => rfl, fun h => absurd hold h⟩

/-- A unit whose parameter sets were taken. -/
structure Taken (h : Hardware) (au : DecoderUnit) : Prop where
  sps : h.backend.sourceSps ≠ []
  firmwareSps : au.sps = h.backend.firmwareSps.take h.backend.firmwareSpsSize
  pps : h.backend.sourcePps ≠ []
  sourcePps : au.pps = h.backend.sourcePps

theorem requestedMain_iff (format : StreamFormat) (entropyMode : ℤ) :
    requestedMain format entropyMode = true ↔
      format.profile ≠ 66 ∨ entropyMode = 1 := by
  simp [requestedMain]

/-- The parameter sets of a unit that is not in the wrong mode ask for the mode
of the backend. -/
theorem Taken.asksFor {au : DecoderUnit} (ht : Taken h au)
    (hsources : Sources h.backend)
    (hmode : requestedMain h.backend.format h.backend.sourceEntropyMode =
      h.backend.mainProfile) : AsksFor au h.backend.mainProfile := by
  obtain ⟨-, f, hformat, hprofile, hid⟩ := hsources.sps ht.sps
  obtain ⟨-, -, report, hreport, hentropy⟩ := hsources.pps ht.pps
  refine ⟨f, report, ht.firmwareSps ▸ hformat, ?_, ?_⟩
  · rw [ht.sourcePps, hid]
    exact hreport
  · rw [← hmode, requestedMain_iff, hprofile, hentropy]
    exact or_congr_right Int.ofNat_inj

/-- A unit that is ready goes to the firmware of a session that is open for its
mode, or the backend gives up, or it asks for the other mode. -/
theorem submitUnit_sane (hk : Kept h)
    (hsession : h.firmware.session.ready = true →
      h.firmware.session.mainProfile = h.backend.mainProfile)
    {since : List BackendEvent}
    (hopened : OpenedSince h.log h.backend.mainProfile since)
    {au : DecoderUnit} (ht : Taken h au)
    (hidr : au.hasIdr = false → AcceptedIdr since ∨ WrongMode h.backend)
    (p : PspAvcPictures) (a : SubmitAnswers) :
    Sane (submitUnit h au p a).1.2 := by
  rw [submitUnit]
  dsimp only
  split
  · exact hk.fail _
  · split
    · rename_i hother
      split
      · exact hk.fail _
      · refine ⟨hk.of_backend hk.input hk.firmwareSps hk.empty
          ⟨hk.sources.sps, hk.sources.pps⟩, fun _ _ => ⟨hsession, since, hopened,
          fun _ => .inr ⟨ht.sps, ht.pps, hother⟩⟩⟩
    · rename_i hmode
      have hmode := not_not.mp hmode
      split
      · exact hk.fail _
      · rename_i hready
        have hready : h.firmware.session.ready = true := by simpa using hready
        have hmain := hsession hready
        have hbefore : au.hasIdr = false → AcceptedIdr since := fun hno =>
          (hidr hno).resolve_right fun hwrong => hwrong.2.2 hmode
        have hleft := (submit_spec (s := h.firmware.session) (p := p) au a).1
        obtain ⟨r, hr⟩ : ∃ r, pspAvcSubmit h.firmware.session au p a = r :=
          ⟨_, rfl⟩
        rw [hr] at hleft ⊢
        have howns : r.2.1.owns = h.firmware.session.owns := by
          rcases hleft with heq | heq <;> rw [heq]
        have hprofile : r.2.1.mainProfile = h.firmware.session.mainProfile := by
          rcases hleft with heq | heq <;> rw [heq]
        have hkept : Kept { h with
            firmware.session := r.2.1
            log := h.log ++
              [BackendEvent.submitted h.firmware.session au r.1] } :=
          ⟨hk.law.snoc ⟨_, since, hopened, hready, hmain,
            ht.asksFor hk.sources hmode, hbefore⟩, hk.sound.of_same howns rfl,
            hk.input, hk.firmwareSps, hk.empty, hk.sources⟩
        split
        · exact hkept.fail _
        · rename_i hok
          have hzero := not_not.mp hok
          refine ⟨hkept.of_backend hkept.input hkept.firmwareSps hkept.empty
            ⟨hkept.sources.sps, hkept.sources.pps⟩, fun _ _ => ⟨fun _ =>
            hprofile.trans hmain, _, hopened.submitted _ au r.1,
            fun _ => .inl ?_⟩⟩
          cases hkind : au.hasIdr with
          | true =>
              rw [hzero]
              exact ⟨_, au, List.mem_append_right _ (List.mem_singleton_self _),
                hkind⟩
          | false => exact (hbefore hkind).append _

/-- A unit that is ready, from a session that is open for the backend. -/
theorem decodeReady_sane (hk : Kept h) (havcc : h.backend.avcc ≠ none)
    (hsession : h.firmware.session.ready = true →
      h.firmware.session.mainProfile = h.backend.mainProfile)
    {since : List BackendEvent}
    (hopened : OpenedSince h.log h.backend.mainProfile since)
    {au : PacketizedAu} {dst : Option (List UInt8)}
    (hunit : IsReadyUnit h.backend.input dst au)
    (hidr : au.hasIdr = false → AcceptedIdr since ∨ WrongMode h.backend)
    (p : PspAvcPictures) (a : SubmitAnswers) :
    ∃ r, decodeReady h au p a = some r ∧ Sane r.1.2 := by
  have hcache : ∀ {n : ℕ} {xs : List UInt8}, n = xs.length ∧ n ≠ 0 → xs ≠ [] := by
    rintro n xs ⟨hn, hne⟩ rfl
    exact hne hn
  have hspsNe := hunit.sps ▸ hcache hunit.spsSize
  have hppsNe := hunit.pps ▸ hcache hunit.ppsSize
  have hspsShort : (h.backend.input.pointed au.sps au.spsSize).length ≤
      parameterSetSize := by
    rw [hunit.sps]
    exact (length_cached hk.input.sps).trans_le hk.input.sps.size_le
  have hppsShort : (h.backend.input.pointed au.pps au.ppsSize).length ≤
      parameterSetSize := by
    rw [hunit.pps]
    exact (length_cached hk.input.pps).trans_le hk.input.pps.size_le
  obtain ⟨⟨taken, b⟩, htake, htook⟩ := takeSps_spec hk.firmwareSps hk.sources
    hunit.sps hspsNe hspsShort
  obtain ⟨fs, n, ss, f, hframe⟩ := htook.frame
  dsimp only at hframe
  have hkb : Kept { h with backend := b } := by
    refine hk.of_backend ?_ htook.length (fun hnone => ?_) htook.sources
    · rw [hframe]
      exact hk.input
    · rw [hframe] at hnone
      exact absurd hnone havcc
  rw [decodeReady]
  simp only [htake, Option.bind_eq_bind, Option.bind_some]
  cases taken with
  | false => exact ⟨_, rfl, hkb.fail _⟩
  | true =>
      have hss : b.sourceSps = _ := htook.taken rfl
      have htookPps := takePps_spec htook.sources (hss ▸ hspsNe)
        (hunit.pps.trans (by rw [hframe])) hppsNe hppsShort
      obtain ⟨r, hr⟩ : ∃ r, takePps b
        (h.backend.input.pointed au.pps au.ppsSize) = r := ⟨_, rfl⟩
      rw [hr] at htookPps
      simp only [Bool.not_true, Bool.false_eq_true, if_false, hr]
      obtain ⟨pp, e, hframe'⟩ := htookPps.frame
      have hkr : Kept { h with backend := r.2 } := by
        refine hkb.of_backend ?_ ?_ (fun hnone => ?_) htookPps.sources
        · rw [hframe']
          exact hkb.input
        · rw [hframe']
          exact hkb.firmwareSps
        · rw [hframe', hframe] at hnone
          exact absurd hnone havcc
      split
      · exact ⟨_, rfl, hkr.fail _⟩
      · rename_i htaken
        have hmain : r.2.mainProfile = h.backend.mainProfile := by
          rw [hframe', hframe]
        have hpps : r.2.sourcePps = _ := htookPps.taken (by simpa using htaken)
        have hsps : r.2.sourceSps = b.sourceSps := by rw [hframe']
        refine ⟨_, rfl, submitUnit_sane hkr (hmain.symm ▸ hsession)
          (hmain.symm ▸ hopened) ⟨?_, rfl, ?_, hpps.symm⟩ (fun hno => ?_) p a⟩
        · exact hsps ▸ hss ▸ hspsNe
        · exact hpps ▸ hppsNe
        · refine (hidr hno).imp_right fun hwrong => ?_
          obtain ⟨-, rfl⟩ := Prod.mk.inj (htook.same hwrong.1)
          have hsame := htookPps.same hwrong.2.1
          rw [hsame]
          exact hwrong

/-- Caches that hold something are kept by a call. -/
theorem Sources.prepared (hsources : Sources b) {s : StreamInput}
    (hkept : CachesKept b.input s) (dst : Option (List UInt8)) :
    Sources { b with input := s, avcc := dst } := by
  have hsize : ∀ {xs ys : List UInt8} {n : ℕ}, xs ≠ [] → xs = ys.take n → n ≠ 0 := by
    rintro xs ys n hne heq rfl
    exact hne heq
  constructor
  · intro hne
    obtain ⟨hsps, hformat⟩ := hsources.sps hne
    exact ⟨hsps.trans (hkept.sps (hsize hne hsps)).2.symm, hformat⟩
  · intro hne
    obtain ⟨hsps, hpps, hreport⟩ := hsources.pps hne
    exact ⟨hsps, hpps.trans (hkept.pps (hsize hne hpps)).2.symm, hreport⟩

theorem decode_sane (hs : Sane h) (src : Option (List UInt8))
    (p : PspAvcPictures) (a : SubmitAnswers) :
    ∃ r, pspAvcBackendDecode h src p a = some r ∧ Sane r.1.2 := by
  rw [pspAvcBackendDecode]
  dsimp only
  split
  · exact ⟨_, rfl, hs⟩
  · rename_i hopen
    simp only [not_or, Option.isNone_iff_eq_none, Bool.not_eq_true] at hopen
    obtain ⟨havcc, hfailed⟩ := hopen
    obtain ⟨hsession, since, hopened, hneed⟩ := hs.decoding havcc hfailed
    obtain ⟨buffer, hbuffer⟩ := Option.ne_none_iff_exists'.mp havcc
    obtain ⟨r, hr, hspec⟩ := prepareUnit_spec hs.input src h.backend.avcc
    have hdst := prepareUnit_dst (hbuffer ▸ hr)
    simp only [hr, Option.bind_eq_bind, Option.bind_some]
    have hk : Kept { h with
        backend.input := r.state
        backend.avcc := r.dst } := by
      refine hs.toKept.of_backend hspec.inv hs.firmwareSps
        (fun hnone => absurd hnone hdst) (hs.sources.prepared hspec.kept r.dst)
    split
    · rename_i hnot
      split
      · exact ⟨_, rfl, hk.fail _⟩
      · refine ⟨_, rfl, hk, fun _ _ => ⟨hsession, since, hopened, fun hgo =>
          hneed ?_⟩⟩
        by_contra hwaits
        have hstill := hspec.needs hnot (by simpa using hwaits)
        exact Bool.noConfusion (hgo.symm.trans hstill)
    · rename_i hready
      have hready := not_not.mp hready
      refine decodeReady_sane hk hdst hsession hopened (hspec.ready hready)
        (fun hno => hneed ?_) _ a
      by_contra hwaits
      have hidr := hspec.idr hready (by simpa using hwaits)
      exact Bool.noConfusion (hno.symm.trans hidr)

/-! ## Runs -/

theorem sane_call (hs : Sane h) (c : BackendCall) :
    ∃ t, h.call c = some t ∧ Sane t := by
  cases c with
  | backendOpen width height helper mainProfile a =>
      exact ⟨_, rfl, backendOpen_sane hs width height helper mainProfile a⟩
  | decode src pictures a =>
      obtain ⟨r, hr, hsane⟩ := decode_sane hs src pictures a
      exact ⟨r.1.2, by rw [Hardware.call, hr]; rfl, hsane⟩
  | switchProfile mainProfile c a =>
      exact ⟨_, rfl, switchProfile_sane hs mainProfile c a⟩
  | reset c a => exact ⟨_, rfl, reset_sane hs c a⟩
  | backendClose a free => exact ⟨_, rfl, backendClose_sane hs a free⟩

theorem sane_runCalls (hs : Sane h) (calls : List BackendCall) :
    ∃ t, h.runCalls calls = some t ∧ Sane t := by
  induction calls generalizing h with
  | nil => exact ⟨h, rfl, hs⟩
  | cons c calls ih =>
      obtain ⟨t, ht, hsane⟩ := sane_call hs c
      obtain ⟨t', ht', hsane'⟩ := ih hsane
      refine ⟨t', ?_, hsane'⟩
      rw [Hardware.runCalls, ht]
      exact ht'

/-- Every run stays inside its buffers and obeys the law at each submission. -/
theorem backend_obeys_gate (calls : List BackendCall) :
    ∃ t, Hardware.start.runCalls calls = some t ∧ Always SubmitLaw t.log := by
  obtain ⟨t, ht, hsane⟩ := sane_runCalls sane_start calls
  exact ⟨t, ht, hsane.law⟩

end MoonlightPsp.Avc
