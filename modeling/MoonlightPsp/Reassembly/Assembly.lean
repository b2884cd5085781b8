import MoonlightPsp.Reassembly.Run
import Mathlib.Data.List.Chain

/-!
# What the assembly buffer holds

Every access unit handed to the decoder is put together from the packets of one
frame, from the packet that opened it to the one that ends it.  The invariant
ties the buffer to the part of the run since the opening packet.
-/

namespace MoonlightPsp.Reassembly

/-! ## Access units -/

/-- A packet that opens a frame, without its Sunshine header. -/
def VideoPacket.stripped (p : VideoPacket) : VideoPacket :=
  { p with payload := sofPayload p }

/-- The packet ends its frame. -/
def VideoPacket.Ends (p : VideoPacket) : Prop :=
  p.payload ≠ [] ∧ (p.lastPacket = true ∨ p.marker = true)

/-- The start code put in front of a frame whose first payload has none. -/
def startCodeFor (payload : List UInt8) : List UInt8 :=
  if payload ≠ [] ∧ isAnnexbStart payload = 0 then [0, 0, 0, 1] else []

/-- The access unit made of the payloads of some packets. -/
def accessUnit : List VideoPacket → List UInt8
  | [] => []
  | first :: rest => startCodeFor first.payload ++
      (first :: rest).flatMap VideoPacket.payload

theorem accessUnit_append_singleton {pieces : List VideoPacket}
    (h : pieces ≠ []) (p : VideoPacket) :
    accessUnit (pieces ++ [p]) = accessUnit pieces ++ p.payload := by
  cases pieces with
  | nil => exact (h rfl).elim
  | cons first rest => simp [accessUnit]

/-- Sequence numbers that follow one another. -/
def ConsecutiveSeq (pieces : List VideoPacket) : Prop :=
  pieces.IsChain fun p q => q.seq = p.seq + 1

/-! ## Collecting a frame -/

/-- Part of a run: a packet opens a frame, and events follow it. -/
structure Collection where
  before : List Event
  opening : Event
  after : List Event
  sof : VideoPacket
  admitted : opening.admitted (run .initial before) = some sof
  first : sof.firstPacket = true

namespace Collection

/-- The run up to here. -/
def events (c : Collection) : List Event := c.before ++ c.opening :: c.after

/-- The state once the events in `x` have followed the opening packet. -/
def stateAfter (c : Collection) (x : List Event) : Depacketizer :=
  run .initial (c.before ++ c.opening :: x)

/-- The packets that got past the filters since the opening packet. -/
def later (c : Collection) : List VideoPacket :=
  admittedRun (c.stateAfter []) c.after

/-- The packets that the frame is made of: the opening packet without its
header, and those of the later ones that do not claim to open the frame again. -/
def pieces (c : Collection) : List VideoPacket :=
  c.sof.stripped :: c.later.filter fun p => !p.firstPacket

/-- The collection with one more event. -/
def extend (c : Collection) (e : Event) : Collection :=
  { c with after := c.after ++ [e] }

variable (c : Collection) (e : Event)

@[simp] theorem extend_events : (c.extend e).events = c.events ++ [e] := by
  simp [events, extend]

theorem run_stateAfter_nil :
    run (c.stateAfter []) c.after = run .initial c.events := by
  simp [stateAfter, events, run]

theorem extend_later : (c.extend e).later =
    c.later ++ (e.admitted (run .initial c.events)).toList := by
  have happend := admittedRun_append (c.stateAfter []) c.after [e]
  rw [run_stateAfter_nil] at happend
  simp only [admittedRun, List.append_nil] at happend
  exact happend

theorem extend_pieces : (c.extend e).pieces = c.pieces ++
    (e.admitted (run .initial c.events)).toList.filter
      fun p => !p.firstPacket := by
  rw [pieces, extend_later, List.filter_append]
  rfl

theorem pieces_ne_nil : c.pieces ≠ [] := List.cons_ne_nil _ _

/-- An event that keeps the sequence tracking honest: the expected number is not
set from outside, and a packet that claims to open the frame again is not at the
expected number. -/
def KeepsTracking (s : Depacketizer) (e : Event) : Prop :=
  (∀ seq, e ≠ .fecComplete seq) ∧
    ∀ p, e.admitted s = some p → p.firstPacket = true →
      p.seq ≠ s.asm.expectedSeq

/-- All events since the opening packet keep the sequence tracking honest. -/
def Tracked : Prop :=
  ∀ x e y, c.after = x ++ e :: y → KeepsTracking (c.stateAfter x) e

/-- The frame is being assembled. -/
structure Ongoing (a : Assembly) : Prop where
  reassembling : a.reassembling = true
  sawFirstSof : a.sawFirstSof = true
  currentFrameId : a.currentFrameId = c.sof.frameId

/-- The assembly `a` belongs to this collection. -/
structure Holds (a : Assembly) : Prop extends Ongoing c a where
  sameFrame : ∀ p ∈ c.later, p.frameId = c.sof.frameId
  buffer : a.frameOverflow = false →
    a.buffer = accessUnit c.pieces ∧ a.buffer.length ≤ maxAssemblySize
  /-- The frame was being assembled before each later event. -/
  ongoing : ∀ x e y, c.after = x ++ e :: y →
    c.Ongoing (c.stateAfter x).asm ∧
      (a.frameOverflow = false → (c.stateAfter x).asm.frameOverflow = false)
  gapless : c.Tracked → a.frameHadGaps = false →
    ConsecutiveSeq c.pieces ∧
      ∃ p, c.pieces.getLast? = some p ∧ a.expectedSeq = p.seq + 1

end Collection

/-! ## Adding payloads -/

/-- The buffer holds the access unit of `pieces`, unless it overflowed. -/
def Assembled (pieces : List VideoPacket) (a : Assembly) : Prop :=
  a.frameOverflow = false →
    a.buffer = accessUnit pieces ∧ a.buffer.length ≤ maxAssemblySize

/-- An append that did not overflow added its data. -/
theorem append_buffer {a : Assembly} {data : List UInt8}
    (h : (a.append data).frameOverflow = false)
    (hlen : a.buffer.length ≤ maxAssemblySize) :
    (a.append data).buffer = a.buffer ++ data ∧
      (a.append data).buffer.length ≤ maxAssemblySize := by
  unfold Assembly.append at h ⊢
  split_ifs with hnil hover
  · have hdata : data = [] := List.length_eq_zero_iff.mp hnil
    rw [hdata, List.append_nil]
    exact ⟨rfl, hlen⟩
  · rw [if_neg hnil, if_pos hover] at h
    cases h
  · refine ⟨rfl, ?_⟩
    rw [List.length_append]
    exact Nat.not_lt.mp hover

theorem Assembled.add {pieces : List VideoPacket} {a : Assembly}
    (h : Assembled pieces a) (hne : pieces ≠ []) {p : VideoPacket}
    (hfirst : p.firstPacket = false) :
    Assembled (pieces ++ [p]) (a.add p p.payload) := by
  intro hover
  rw [Assembly.add, if_neg (by simp [hfirst])] at hover ⊢
  have ha : a.frameOverflow = false :=
    (a.append_sameTracking p.payload).overflow hover
  obtain ⟨hbuffer, hlen⟩ := h ha
  obtain ⟨hbuffer', hlen'⟩ := append_buffer hover hlen
  refine ⟨?_, hlen'⟩
  rw [hbuffer', hbuffer, accessUnit_append_singleton hne]

theorem assembled_start (a : Assembly) {p : VideoPacket}
    (hfirst : p.firstPacket = true) (hne : sofPayload p ≠ []) :
    Assembled [p.stripped] (a.start.add p (sofPayload p)) := by
  intro hover
  have hunit : accessUnit [p.stripped] =
      startCodeFor (sofPayload p) ++ sofPayload p := by
    simp [accessUnit, VideoPacket.stripped]
  have hempty : a.start.buffer.length ≤ maxAssemblySize := Nat.zero_le _
  rw [hunit]
  unfold Assembly.add startCodeFor at *
  by_cases hcode : isAnnexbStart (sofPayload p) = 0
  · rw [if_pos ⟨hfirst, hcode⟩] at hover ⊢
    rw [if_pos ⟨hne, hcode⟩]
    have hstart := Assembly.append_sameTracking
      (a.start.append [0, 0, 0, 1]) (sofPayload p)
    obtain ⟨hbuffer, hlen⟩ := append_buffer (hstart.overflow hover) hempty
    obtain ⟨hbuffer', hlen'⟩ := append_buffer hover hlen
    refine ⟨?_, hlen'⟩
    rw [hbuffer', hbuffer]
    rfl
  · rw [if_neg (fun h => hcode h.2)] at hover ⊢
    rw [if_neg (fun h => hcode h.2)]
    obtain ⟨hbuffer, hlen⟩ := append_buffer hover hempty
    exact ⟨hbuffer, hlen⟩

/-! ## The collection moves on -/

namespace Collection

/-- A frame opens: the collection has just its opening packet. -/
theorem holds_opened {es : List Event} {e : Event} {p : VideoPacket}
    (hpass : e.admitted (run .initial es) = some p)
    (hfirst : p.firstPacket = true) {a : Assembly}
    (hsame : Assembly.SameTracking ((run .initial es).asm.track p).start a)
    (hbuffer : Assembled [p.stripped] a) :
    Holds ⟨es, e, [], p, hpass, hfirst⟩ a where
  reassembling := hsame.reassembling
  sawFirstSof := hsame.sawFirstSof
  currentFrameId := by
    rw [hsame.currentFrameId]
    exact Assembly.track_currentFrameId _ p
  sameFrame := by
    intro q hq
    cases hq
  buffer := hbuffer
  ongoing := by
    intro x e' y hsplit
    simp at hsplit
  gapless := by
    intro _ _
    refine ⟨List.isChain_singleton _, p.stripped, rfl, ?_⟩
    rw [hsame.expectedSeq]
    exact Assembly.track_expectedSeq _ p

/-- The sequence numbers go on: no piece is added and the expected number stays,
or the next piece has the expected number. -/
def GoesOn (c : Collection) (e : Event) (a a' : Assembly) : Prop :=
  a.frameHadGaps = false ∧
    (((c.extend e).pieces = c.pieces ∧ a'.expectedSeq = a.expectedSeq) ∨
      ∃ p, (c.extend e).pieces = c.pieces ++ [p] ∧ p.seq = a.expectedSeq ∧
        a'.expectedSeq = p.seq + 1)

theorem consecutiveSeq_append_singleton {pieces : List VideoPacket}
    {p q : VideoPacket} (h : ConsecutiveSeq pieces)
    (hlast : pieces.getLast? = some p) (hq : q.seq = p.seq + 1) :
    ConsecutiveSeq (pieces ++ [q]) := by
  apply List.IsChain.append h (List.isChain_singleton q)
  intro x hx y hy
  rw [hlast] at hx
  cases hx
  cases hy
  exact hq

/-- One more event while the frame is being assembled. -/
theorem Holds.extend {c : Collection} {e : Event} {a a' : Assembly}
    (h : c.Holds a) (ha : a = (run .initial c.events).asm)
    (hframe : ∀ p, e.admitted (run .initial c.events) = some p →
      p.frameId = c.sof.frameId)
    (hongoing : c.Ongoing a')
    (hover : a'.frameOverflow = false → a.frameOverflow = false)
    (hbuffer : Assembled (c.extend e).pieces a')
    (hgoes : KeepsTracking (run .initial c.events) e →
      a'.frameHadGaps = false → c.GoesOn e a a') :
    (c.extend e).Holds a' where
  toOngoing := ⟨hongoing.1, hongoing.2, hongoing.3⟩
  sameFrame := by
    intro p hp
    rw [extend_later, List.mem_append, Option.mem_toList] at hp
    cases hp with
    | inl hold => exact h.sameFrame p hold
    | inr hnew => exact hframe p hnew
  buffer := hbuffer
  ongoing := by
    intro x e' y hsplit
    have hsplit' : c.after ++ [e] = x ++ e' :: y := hsplit
    rcases List.append_eq_append_iff.mp hsplit' with
      ⟨z, hx, hz⟩ | ⟨z, hx, hz⟩
    · -- the new event is the one that is looked at
      cases z with
      | nil =>
          rw [List.append_nil] at hx
          subst hx
          have hstate : ((c.extend e).stateAfter c.after).asm = a := ha.symm
          rw [hstate]
          exact ⟨⟨h.reassembling, h.sawFirstSof, h.currentFrameId⟩, hover⟩
      | cons b z =>
          simp at hz
    · cases z with
      | nil =>
          rw [List.append_nil] at hx
          subst hx
          have hstate : ((c.extend e).stateAfter c.after).asm = a := ha.symm
          rw [hstate]
          exact ⟨⟨h.reassembling, h.sawFirstSof, h.currentFrameId⟩, hover⟩
      | cons b z =>
          rw [List.cons_append, List.cons.injEq] at hz
          obtain ⟨rfl, -⟩ := hz
          obtain ⟨hon, hfit⟩ := h.ongoing x e' z hx
          exact ⟨⟨hon.1, hon.2, hon.3⟩, fun hz => hfit (hover hz)⟩
  gapless := by
    intro htracked hgaps
    have hold : c.Tracked := fun x e' y hsplit =>
      htracked x e' (y ++ [e]) (by
        show c.after ++ [e] = _
        rw [hsplit]
        simp)
    have hkeeps : KeepsTracking (run .initial c.events) e :=
      htracked c.after e [] rfl
    obtain ⟨hgaps', hstep⟩ := hgoes hkeeps hgaps
    obtain ⟨hchain, p, hlast, hexp⟩ := h.gapless hold hgaps'
    rcases hstep with ⟨hpieces, hsame⟩ | ⟨q, hpieces, hseq, hnext⟩
    · rw [hpieces]
      exact ⟨hchain, p, hlast, hsame.trans hexp⟩
    · rw [hpieces]
      refine ⟨consecutiveSeq_append_singleton hchain hlast
        (hseq.trans hexp), q, ?_, hnext⟩
      simp

/-- The pieces end with the last one, and only there. -/
def EndsOnce (c : Collection) : Prop :=
  ∃ old last, c.pieces = old ++ [last] ∧ (∀ p ∈ old, ¬p.Ends) ∧ last.Ends

/-- The event `e` completes the frame after the run `es`: the assembly is `a` at
that moment, and `d` is handed over. -/
structure Completes (c : Collection) (es : List Event) (e : Event)
    (a : Assembly) (d : UInt32 × List UInt8) : Prop where
  events : c.events = es ++ [e]
  holds : c.Holds a
  intact : a.IsIntact (run .initial es).flags.fecRecoveryClean
  handedOver : d = (c.sof.frameId, a.buffer)
  endsOnce : c.EndsOnce
  packet : ∃ p, e.admitted (run .initial es) = some p ∧
    p.frameId = c.sof.frameId

/-- While a frame is being assembled, the buffer belongs to a collection whose
pieces do not end the frame. -/
def Collecting (es : List Event) (a : Assembly) : Prop :=
  a.reassembling = true → ∃ c : Collection,
    c.events = es ∧ c.Holds a ∧ ∀ p ∈ c.pieces, ¬p.Ends

/-- A payload of the frame that `c` collects: the frame is still collected, or
it is complete. -/
theorem added_spec {c : Collection} {es : List Event} {e : Event}
    {b a' : Assembly} {p : VideoPacket} {payload : List UInt8}
    {ds : List (UInt32 × List UInt8)} (old : List VideoPacket)
    (hadd : Added b (run .initial es).flags.fecRecoveryClean p payload a' ds)
    (hopen : b.reassembling = true)
    (hpass : e.admitted (run .initial es) = some p)
    (hframe : p.frameId = c.sof.frameId)
    (hevents : c.events = es ++ [e])
    (hpieces : c.pieces = old ++ [{ p with payload := payload }])
    (hold : ∀ q ∈ old, ¬q.Ends)
    (hempty : payload = [] → c.Holds b)
    (hne : payload ≠ [] → c.Holds (b.add p payload)) :
    Collecting (es ++ [e]) a' ∧
      ∀ d ∈ ds, ∃ a, c.Completes es e a d := by
  have hgoing : ¬VideoPacket.Ends { p with payload := payload } →
      ∀ q ∈ c.pieces, ¬q.Ends := by
    intro hlast q hq
    rw [hpieces, List.mem_append, List.mem_singleton] at hq
    rcases hq with hq | rfl
    · exact hold q hq
    · exact hlast
  cases hadd with
  | ignored h =>
      have hnil : payload = [] := h.resolve_left (by simp [hopen])
      constructor
      · intro _
        exact ⟨c, hevents, hempty hnil, hgoing fun h => h.1 hnil⟩
      · intro d hd
        cases hd
  | grew _ hpayload hends =>
      constructor
      · intro _
        refine ⟨c, hevents, hne hpayload, hgoing fun h => ?_⟩
        have hlast := h.2
        simp [hends.1, hends.2] at hlast
      · intro d hd
        cases hd
  | dropped _ hpayload hends hintact =>
      constructor
      · intro h
        cases h
      · intro d hd
        cases hd
  | delivered _ hpayload hends hintact =>
      constructor
      · intro h
        cases h
      · intro d hd
        rw [List.mem_singleton] at hd
        subst hd
        refine ⟨b.add p payload, hevents, hne hpayload, hintact, ?_,
          ⟨old, _, hpieces, hold, hpayload, hends⟩, p, hpass, hframe⟩
        rw [hframe]

end Collection

open Collection

/-- A packet that opens a frame. -/
theorem started_spec {es : List Event} {e : Event} {p : VideoPacket}
    {a' : Assembly} {ds : List (UInt32 × List UInt8)}
    (hpass : e.admitted (run .initial es) = some p)
    (hfirst : p.firstPacket = true)
    (hadd : Added ((run .initial es).asm.track p).start
      (run .initial es).flags.fecRecoveryClean p (sofPayload p) a' ds) :
    Collecting (es ++ [e]) a' ∧
      ∀ d ∈ ds, ∃ (c : Collection) (a : Assembly), c.Completes es e a d := by
  have hspec := added_spec (c := ⟨es, e, [], p, hpass, hfirst⟩) [] hadd
    rfl hpass rfl rfl rfl (by simp)
    (fun hnil => holds_opened hpass hfirst
      ⟨rfl, rfl, rfl, rfl, rfl, id⟩ (fun _ => by
        simp [accessUnit, startCodeFor, VideoPacket.stripped, hnil,
          Assembly.start]))
    (fun hne => holds_opened hpass hfirst
      (Assembly.add_sameTracking _ p _) (assembled_start _ hfirst hne))
  exact ⟨hspec.1, fun d hd => ⟨_, hspec.2 d hd⟩⟩

/-- A packet that is not the first one of its frame. -/
theorem continued_spec {es : List Event} {e : Event} {p : VideoPacket}
    {a' : Assembly} {ds : List (UInt32 × List UInt8)}
    (h : Collecting es (run .initial es).asm)
    (hpass : e.admitted (run .initial es) = some p)
    (hfirst : p.firstPacket = false)
    (hadd : Added ((run .initial es).asm.track p)
      (run .initial es).flags.fecRecoveryClean p p.payload a' ds) :
    Collecting (es ++ [e]) a' ∧
      ∀ d ∈ ds, ∃ (c : Collection) (a : Assembly), c.Completes es e a d := by
  set a := (run .initial es).asm with ha
  by_cases hopen : (a.track p).reassembling = true
  · have hsame := a.same_frame_of_reassembling p hopen
    have htrack := a.track_of_same p hsame
    obtain ⟨c, hevents, hholds, hgoing⟩ :=
      h (htrack.reassembling.symm.trans hopen)
    have hframe : p.frameId = c.sof.frameId :=
      hsame.trans hholds.currentFrameId
    subst hevents
    have hpieces : (c.extend e).pieces = c.pieces ++ [p] := by
      rw [extend_pieces, hpass]
      simp [hfirst]
    have hgoes : ∀ b, Assembly.SameTracking (a.track p) b →
        b.frameHadGaps = false → c.GoesOn e a b := by
      intro b hb hgaps
      rw [hb.frameHadGaps, htrack.gaps, Bool.or_eq_false_iff] at hgaps
      refine ⟨hgaps.1, Or.inr ⟨p, hpieces, ?_, ?_⟩⟩
      · simpa using hgaps.2
      · rw [hb.expectedSeq]
        exact Assembly.track_expectedSeq a p
    have hbase : Assembled c.pieces (a.track p) := by
      intro hover
      rw [htrack.buffer]
      exact hholds.buffer (htrack.frameOverflow.symm.trans hover)
    have hextend : ∀ b, Assembly.SameTracking (a.track p) b →
        Assembled (c.pieces ++ [p]) b → (c.extend e).Holds b := by
      intro b hb hbuffer
      refine hholds.extend ha ?_ ⟨?_, ?_, ?_⟩ ?_ ?_ (fun _ => hgoes b hb)
      · intro q hq
        rw [hpass] at hq
        cases hq
        exact hframe
      · exact hb.reassembling.trans hopen
      · rw [hb.sawFirstSof, htrack.sawFirstSof]
        exact hholds.sawFirstSof
      · rw [hb.currentFrameId, ← hframe]
        exact Assembly.track_currentFrameId a p
      · intro hover
        exact htrack.frameOverflow.symm.trans (hb.overflow hover)
      · rw [hpieces]
        exact hbuffer
    have hspec := added_spec (c := c.extend e) c.pieces hadd hopen
      hpass hframe (extend_events c e) hpieces hgoing
      (fun hnil => hextend _ ⟨rfl, rfl, rfl, rfl, rfl, id⟩ (by
        intro hover
        rw [accessUnit_append_singleton c.pieces_ne_nil, hnil,
          List.append_nil]
        exact hbase hover))
      (fun _ => hextend _ (Assembly.add_sameTracking _ p _)
        (hbase.add c.pieces_ne_nil hfirst))
    exact ⟨hspec.1, fun d hd => ⟨_, hspec.2 d hd⟩⟩
  · cases hadd with
    | ignored _ =>
        refine ⟨fun hcontra => (hopen hcontra).elim, ?_⟩
        intro d hd
        cases hd
    | grew hcontra => exact (hopen hcontra).elim
    | dropped hcontra => exact (hopen hcontra).elim
    | delivered hcontra => exact (hopen hcontra).elim

/-- A packet that claims to open a frame whose opening was seen. -/
theorem repeated_spec {es : List Event} {e : Event} {p : VideoPacket}
    (h : Collecting es (run .initial es).asm)
    (hpass : e.admitted (run .initial es) = some p)
    (hfirst : p.firstPacket = true)
    (hsaw : ((run .initial es).asm.track p).sawFirstSof = true) :
    Collecting (es ++ [e]) ((run .initial es).asm.track p) := by
  intro hopen
  set a := (run .initial es).asm with ha
  have hsame := a.same_frame_of_sawFirstSof p hsaw
  have htrack := a.track_of_same p hsame
  obtain ⟨c, hevents, hholds, hgoing⟩ :=
    h (htrack.reassembling.symm.trans hopen)
  have hframe : p.frameId = c.sof.frameId :=
    hsame.trans hholds.currentFrameId
  subst hevents
  have hpieces : (c.extend e).pieces = c.pieces := by
    rw [extend_pieces, hpass]
    simp [hfirst]
  refine ⟨c.extend e, extend_events c e, ?_, ?_⟩
  · refine hholds.extend ha ?_ ⟨hopen, hsaw, ?_⟩ ?_ ?_ ?_
    · intro q hq
      rw [hpass] at hq
      cases hq
      exact hframe
    · rw [← hframe]
      exact Assembly.track_currentFrameId a p
    · intro hover
      exact htrack.frameOverflow.symm.trans hover
    · intro hover
      rw [hpieces, htrack.buffer]
      exact hholds.buffer (htrack.frameOverflow.symm.trans hover)
    · intro hkeeps hgaps
      -- the repeated packet is not at the expected number: a gap
      rw [htrack.gaps, Bool.or_eq_false_iff] at hgaps
      have hseq := hkeeps.2 p hpass hfirst
      simp only [← ha, ne_eq] at hseq
      simp [hseq] at hgaps
  · rw [hpieces]
    exact hgoing

/-- An event without an admitted packet. -/
theorem silent_spec {es : List Event} {e : Event}
    (h : Collecting es (run .initial es).asm)
    (hpass : e.admitted (run .initial es) = none) :
    Collecting (es ++ [e]) (e.silentAsm (run .initial es).asm) := by
  intro hopen
  set a := (run .initial es).asm with ha
  -- a frame that is still being assembled was so before, with the same buffer
  have hkept : (∀ seq, e ≠ .fecComplete seq) ∧ e.silentAsm a = a ∨
      ∃ seq, e = .fecComplete seq := by
    cases e with
    | fecPrepare frameId =>
        simp only [Event.silentAsm] at hopen ⊢
        split at hopen
        · rename_i hother
          exact Or.inl ⟨by simp, if_pos hother⟩
        · cases hopen
    | fecComplete seq => exact Or.inr ⟨seq, rfl⟩
    | reset => cases hopen
    | _ => exact Or.inl ⟨by simp, rfl⟩
  have hsame : Assembly.SameTracking
      { a with expectedSeq := (e.silentAsm a).expectedSeq } (e.silentAsm a) ∧
      (e.silentAsm a).buffer = a.buffer ∧
      (e.silentAsm a).frameOverflow = a.frameOverflow := by
    rcases hkept with ⟨-, heq⟩ | ⟨seq, rfl⟩
    · rw [heq]
      exact ⟨⟨rfl, rfl, rfl, rfl, rfl, id⟩, rfl, rfl⟩
    · exact ⟨⟨rfl, rfl, rfl, rfl, rfl, id⟩, rfl, rfl⟩
  obtain ⟨htracking, hbuffer, hover⟩ := hsame
  obtain ⟨c, hevents, hholds, hgoing⟩ :=
    h (htracking.reassembling.symm.trans hopen)
  subst hevents
  have hpieces : (c.extend e).pieces = c.pieces := by
    rw [extend_pieces, hpass]
    simp
  refine ⟨c.extend e, extend_events c e, ?_, ?_⟩
  · refine hholds.extend ha ?_ ⟨hopen, ?_, ?_⟩ ?_ ?_ ?_
    · intro q hq
      rw [hpass] at hq
      cases hq
    · exact htracking.sawFirstSof.trans hholds.sawFirstSof
    · exact htracking.currentFrameId.trans hholds.currentFrameId
    · exact fun h => hover.symm.trans h
    · intro hfits
      rw [hpieces, hbuffer]
      exact hholds.buffer (hover.symm.trans hfits)
    · intro hkeeps hgaps
      rcases hkept with ⟨-, heq⟩ | ⟨seq, rfl⟩
      · rw [heq] at hgaps ⊢
        exact ⟨hgaps, Or.inl ⟨hpieces, rfl⟩⟩
      · exact (hkeeps.1 seq rfl).elim
  · rw [hpieces]
    exact hgoing

/-- One event: the invariant is kept, and what is handed over completes a
collection. -/
theorem collecting_step {es : List Event}
    (h : Collecting es (run .initial es).asm) (e : Event) :
    Collecting (es ++ [e]) (step (run .initial es) e).asm ∧
      ∀ d ∈ deliveries (step (run .initial es) e).out,
        ∃ (c : Collection) (a : Assembly), c.Completes es e a d := by
  cases hpass : e.admitted (run .initial es) with
  | none =>
      obtain ⟨hasm, hdel⟩ := step_of_silent _ e hpass
      rw [hasm, hdel]
      refine ⟨silent_spec h hpass, ?_⟩
      intro d hd
      cases hd
  | some p =>
      have hhandled := step_of_admitted _ e p hpass
      generalize (step (run .initial es) e).asm = a' at hhandled ⊢
      generalize deliveries (step (run .initial es) e).out = ds at hhandled ⊢
      cases hhandled with
      | repeated hfirst hsaw =>
          refine ⟨repeated_spec h hpass hfirst hsaw, ?_⟩
          intro d hd
          cases hd
      | held hfirst hsaw =>
          constructor
          · intro hcontra
            cases hcontra
          · intro d hd
            cases hd
      | started hfirst hsaw hadd => exact started_spec hpass hfirst hadd
      | continued hfirst hadd => exact continued_spec h hpass hfirst hadd

theorem collecting_run (es : List Event) :
    Collecting es (run .initial es).asm := by
  induction es using List.reverseRecOn with
  | nil =>
      intro hcontra
      cases hcontra
  | append_singleton es e ih =>
      rw [run_append_singleton]
      exact (collecting_step ih e).1

/-- What a run hands over completes a collection. -/
theorem completes_of_delivered {es : List Event} {e : Event}
    {d : UInt32 × List UInt8}
    (hd : d ∈ deliveries (step (run .initial es) e).out) :
    ∃ (c : Collection) (a : Assembly), c.Completes es e a d :=
  (collecting_step (collecting_run es) e).2 d hd

/-! ## Exact assembly -/

/-- Every buffer handed to the decoder is the access unit of the packets of one
frame that were processed since the packet that opened it; the last one ends the
frame, and nothing overflowed. -/
theorem delivered_is_access_unit (es : List Event) (e : Event)
    (frameId : UInt32) (buffer : List UInt8)
    (h : (frameId, buffer) ∈ deliveries (step (run .initial es) e).out) :
    ∃ c : Collection, c.events = es ++ [e] ∧ c.sof.frameId = frameId ∧
      (∀ p ∈ c.later, p.frameId = frameId) ∧ c.EndsOnce ∧
      buffer = accessUnit c.pieces ∧ buffer.length ≤ maxAssemblySize ∧
      ∀ x e' y, c.after = x ++ e' :: y → c.Ongoing (c.stateAfter x).asm ∧
        (c.stateAfter x).asm.frameOverflow = false := by
  obtain ⟨c, a, hc⟩ := completes_of_delivered h
  have hfits : a.frameOverflow = false := hc.intact.2.1
  obtain ⟨hunit, hlen⟩ := hc.holds.buffer hfits
  have hhanded := hc.handedOver
  rw [Prod.mk.injEq] at hhanded
  obtain ⟨rfl, rfl⟩ := hhanded
  refine ⟨c, hc.events, rfl, hc.holds.sameFrame, hc.endsOnce, hunit, hlen, ?_⟩
  intro x e' y hsplit
  obtain ⟨hongoing, hover⟩ := hc.holds.ongoing x e' y hsplit
  exact ⟨hongoing, hover hfits⟩

/-- The first two of three packets of a frame, which brings no start code. -/
def openPackets : List Event :=
  [.packet quietEnv (mkPacket 0 1 5 [0x65, 0x88]), .packet quietEnv (mkPacket 1 1 1 [0x10])]

theorem delivered_is_access_unit_three_packets :
    ∃ c : Collection,
      c.events = openPackets ++ [.packet quietEnv (mkPacket 2 1 3 [0x20, 0x30])] ∧
      c.sof.frameId = 1 ∧ (∀ p ∈ c.later, p.frameId = 1) ∧ c.EndsOnce ∧
      [0, 0, 0, 1, 0x65, 0x88, 0x10, 0x20, 0x30] = accessUnit c.pieces ∧
      [0, 0, 0, 1, 0x65, 0x88, 0x10, 0x20, 0x30].length ≤ maxAssemblySize ∧
      ∀ x e' y, c.after = x ++ e' :: y → c.Ongoing (c.stateAfter x).asm ∧
        (c.stateAfter x).asm.frameOverflow = false :=
  delivered_is_access_unit openPackets (.packet quietEnv (mkPacket 2 1 3 [0x20, 0x30]))
    1 [0, 0, 0, 1, 0x65, 0x88, 0x10, 0x20, 0x30] (by decide)

/-- A payload that is just a start code gets another one in front: it is not the
case that the start code is added if and only if the payload does not begin with
one. -/
theorem delivered_behind_second_start_code :
    ¬ ∀ (es : List Event) (e : Event) (frameId : UInt32)
        (buffer : List UInt8),
      (frameId, buffer) ∈ deliveries (step (run .initial es) e).out →
      ∃ (c : Collection) (code : List UInt8), c.events = es ++ [e] ∧
        (code = [] ∨ code = [0, 0, 0, 1]) ∧
        (code = [0, 0, 0, 1] ↔ ¬([0, 0, 1] <+: sofPayload c.sof ∨
          [0, 0, 0, 1] <+: sofPayload c.sof)) ∧
        buffer = code ++ c.pieces.flatMap VideoPacket.payload := by
  intro hclaim
  obtain ⟨c, code, hevents, hcode, hiff, hbuffer⟩ := hclaim []
    (.packet quietEnv (mkPacket 0 1 7 [0, 0, 1])) 1 [0, 0, 0, 1, 0, 0, 1]
    (by decide)
  obtain ⟨before, opening, after, sof, hpass, hfirst⟩ := c
  cases before with
  | cons b rest =>
      have hlen := congrArg List.length hevents
      simp [Collection.events] at hlen
  | nil =>
      obtain ⟨rfl, rfl⟩ : opening = .packet quietEnv (mkPacket 0 1 7 [0, 0, 1]) ∧
          after = [] := by
        simpa [Collection.events] using hevents
      have hsof : sof.payload = [0, 0, 1] := by
        have hpayload := congrArg (Option.map VideoPacket.payload) hpass
        have hraw : Option.map VideoPacket.payload
            (Event.admitted (run .initial [])
              (.packet quietEnv (mkPacket 0 1 7 [0, 0, 1]))) =
            some [0, 0, 1] := by decide
        rw [hraw] at hpayload
        exact (Option.some.inj hpayload).symm
      have hstripped : sofPayload sof = [0, 0, 1] := by
        rw [sofPayload, hsof]
        decide
      have hnone : code = [] := by
        refine hcode.resolve_right fun hfour => ?_
        apply hiff.mp hfour
        rw [hstripped]
        decide
      have hpieces : [sof.stripped].flatMap VideoPacket.payload =
          [0, 0, 1] := by
        simp [VideoPacket.stripped, hstripped]
      rw [hnone, show Collection.pieces _ = [sof.stripped] from rfl,
        hpieces] at hbuffer
      exact absurd hbuffer (by decide)

end MoonlightPsp.Reassembly
