import MoonlightPsp.RtpFec.Order
import MoonlightPsp.RtpFec.Submission

/-!
# The FEC layer: the fate of every frame

Between two resets, the frames become current in increasing order, and a frame
is submitted or dropped once before the next one becomes current, provided that
a packet of it was put into a slot.  A frame in several blocks can become
current without that, when the packet that opens it has no slot.  Then nothing
becomes of it.
-/

namespace MoonlightPsp.RtpFec

open EventLog ReedSolomon SerialNumber

/-! ## The ledger -/

/-- Whether the event ends this frame. -/
def FecEvent.ends (frame : UInt32) : FecEvent → Bool
  | .submitted sub => sub.frame = frame
  | .dropped f _ _ _ => f = frame
  | _ => false

/-- Whether the event is about a packet of this frame that was put into a
slot. -/
def FecEvent.keeps (frame : UInt32) : FecEvent → Bool
  | .stored f _ _ => f = frame
  | _ => false

/-- How often a frame was submitted or dropped. -/
def fates (frame : UInt32) (events : List FecEvent) : ℕ :=
  events.countP (FecEvent.ends frame)

/-- Whether a packet of the frame was put into a slot. -/
def kept (frame : UInt32) (events : List FecEvent) : Bool :=
  events.any (FecEvent.keeps frame)

/-- Whether the event is about no frame in particular. -/
def FecEvent.isNeutral : FecEvent → Bool
  | .recoveryClean _ => true
  | .prepare _ => true
  | .late _ _ => true
  | _ => false

theorem fates_append (f : UInt32) (l m : List FecEvent) :
    fates f (l ++ m) = fates f l + fates f m :=
  List.countP_append

theorem kept_append (f : UInt32) (l m : List FecEvent) :
    kept f (l ++ m) = (kept f l || kept f m) :=
  List.any_append

theorem fates_of_isNeutral {new : List FecEvent}
    (hnew : ∀ e ∈ new, e.isNeutral) (f : UInt32) : fates f new = 0 := by
  rw [fates, List.countP_eq_zero]
  intro e he
  have := hnew e he
  cases e <;> simp_all [FecEvent.isNeutral, FecEvent.ends]

theorem kept_of_isNeutral {new : List FecEvent}
    (hnew : ∀ e ∈ new, e.isNeutral) (f : UInt32) : kept f new = false := by
  rw [kept, List.any_eq_false]
  intro e he
  have := hnew e he
  cases e <;> simp_all [FecEvent.isNeutral, FecEvent.keeps]

theorem isNeutral_of_isQuiet {e : FecEvent} (h : e.isQuiet) : e.isNeutral := by
  cases e <;> simp_all [FecEvent.isQuiet, FecEvent.isNeutral]

/-- A frame that becomes current is later than those before it, each of which
has ended once if a packet of it was put into a slot, and else not at all. -/
def ReplacesEnded (base : UInt32) (before : List FecEvent) (e : FecEvent) :
    Prop :=
  ∀ g, e = .becameCurrent g → ∀ f, .becameCurrent f ∈ before →
    position base f < position base g ∧
      fates f before = (kept f before).toNat

/-- What the events since the reset say about the frames. -/
structure Ledger (base : UInt32) (s : Fec) (events : List FecEvent) :
    Prop where
  past : ∀ f, .becameCurrent f ∈ events → s.currentFrame ≠ noFrame ∧
    position base f ≤ position base s.currentFrame
  unknown : ∀ f, .becameCurrent f ∉ events →
    fates f events = 0 ∧ kept f events = false
  replaced : ∀ f, f ≠ s.currentFrame →
    fates f events = (kept f events).toNat
  current : s.currentFrame ≠ noFrame →
    .becameCurrent s.currentFrame ∈ events ∧
      fates s.currentFrame events = s.frameSubmitted.toNat ∧
      kept s.currentFrame events = decide (0 < s.receivedCount) ∧
      (s.frameSubmitted = true → 0 < s.receivedCount)
  always : Always (ReplacesEnded base) events

theorem replacesEnded_of_ne {base : UInt32} {e : FecEvent}
    (he : ∀ g, e ≠ .becameCurrent g) (before : List FecEvent) :
    ReplacesEnded base before e :=
  fun g hg => absurd hg (he g)

theorem not_mem_of_isNeutral {new : List FecEvent}
    (hnew : ∀ e ∈ new, e.isNeutral) (f : UInt32) : .becameCurrent f ∉ new :=
  fun h => Bool.noConfusion (hnew _ h)

section

variable {base : UInt32} {s t : Fec} {events : List FecEvent}

/-- Neutral events leave the ledger as it is. -/
theorem Ledger.neutral (h : Ledger base s events)
    (hcurrent : t.currentFrame = s.currentFrame)
    (hsubmitted : t.frameSubmitted = s.frameSubmitted)
    (hcount : t.receivedCount = s.receivedCount) {new : List FecEvent}
    (hnew : ∀ e ∈ new, e.isNeutral) : Ledger base t (events ++ new) := by
  have hmem (f : UInt32) : FecEvent.becameCurrent f ∈ events ++ new ↔
      .becameCurrent f ∈ events := by
    simp [not_mem_of_isNeutral hnew f]
  have hfates (f : UInt32) : fates f (events ++ new) = fates f events := by
    rw [fates_append, fates_of_isNeutral hnew, Nat.add_zero]
  have hkept (f : UInt32) : kept f (events ++ new) = kept f events := by
    rw [kept_append, kept_of_isNeutral hnew, Bool.or_false]
  constructor
  · simp only [hmem, hcurrent]
    exact h.past
  · simp only [hmem, hfates, hkept]
    exact h.unknown
  · simp only [hfates, hkept, hcurrent]
    exact h.replaced
  · simp only [hmem, hfates, hkept, hcurrent, hsubmitted, hcount]
    exact h.current
  · refine h.always.append fun e he => replacesEnded_of_ne ?_
    rintro g rfl
    exact Bool.noConfusion (hnew _ he)

/-- The current frame ends. -/
theorem Ledger.ended (h : Ledger base s events)
    (hcurrent : s.currentFrame ≠ noFrame)
    (hopen : s.frameSubmitted = false) (hpos : 0 < s.receivedCount)
    (hsame : t.currentFrame = s.currentFrame)
    (hsubmitted : t.frameSubmitted = true)
    (hcount : t.receivedCount = s.receivedCount) {clean : Bool}
    {fate : FecEvent} (hfate : EndsWith s clean fate) :
    Ledger base t (events ++ [fate]) := by
  obtain ⟨hmem, hfates, hkept, -⟩ := h.current hcurrent
  have hends (f : UInt32) : fates f [fate] =
      if s.currentFrame = f then 1 else 0 := by
    cases hfate with
    | dropped => simp [fates, List.countP_cons, FecEvent.ends]
    | submitted sub hframe =>
        simp [fates, List.countP_cons, FecEvent.ends, hframe]
  have hkeeps (f : UInt32) : kept f [fate] = false := by
    cases hfate <;> simp [kept, FecEvent.keeps]
  have hnot (f : UInt32) : FecEvent.becameCurrent f ∈ events ++ [fate] ↔
      .becameCurrent f ∈ events := by
    cases hfate <;> simp
  constructor
  · simp only [hnot, hsame]
    exact h.past
  · intro f hf
    rw [hnot] at hf
    have hne : s.currentFrame ≠ f := by
      rintro rfl
      exact hf hmem
    rw [fates_append, kept_append, hends, hkeeps, if_neg hne, Nat.add_zero,
      Bool.or_false]
    exact h.unknown f hf
  · intro f hf
    rw [hsame] at hf
    rw [fates_append, kept_append, hends, hkeeps, if_neg hf.symm, Nat.add_zero,
      Bool.or_false]
    exact h.replaced f hf
  · intro _
    rw [hsame, hnot, fates_append, kept_append, hends, hkeeps, if_pos rfl,
      hfates, hkept, hopen, hsubmitted, hcount]
    exact ⟨hmem, rfl, by simp, fun _ => hpos⟩
  · refine h.always.snoc (replacesEnded_of_ne ?_ _)
    cases hfate <;> simp

/-- A packet of the current frame is put into a slot. -/
theorem Ledger.stored (h : Ledger base s events)
    (hcurrent : s.currentFrame ≠ noFrame)
    (hsame : t.currentFrame = s.currentFrame)
    (hsubmitted : t.frameSubmitted = s.frameSubmitted)
    (hcount : t.receivedCount = s.receivedCount + 1) (slot : ℕ)
    (header : FecHeader) :
    Ledger base t (events ++ [.stored s.currentFrame slot header]) := by
  obtain ⟨hmem, hfates, hkept, hsub⟩ := h.current hcurrent
  have hends (f : UInt32) :
      fates f [FecEvent.stored s.currentFrame slot header] = 0 := rfl
  have hkeeps (f : UInt32) :
      kept f [FecEvent.stored s.currentFrame slot header] =
        decide (s.currentFrame = f) := by
    simp [kept, FecEvent.keeps]
  have hnot (f : UInt32) : FecEvent.becameCurrent f ∈
      events ++ [.stored s.currentFrame slot header] ↔
        .becameCurrent f ∈ events := by
    simp
  constructor
  · simp only [hnot, hsame]
    exact h.past
  · intro f hf
    rw [hnot] at hf
    have hne : s.currentFrame ≠ f := by
      rintro rfl
      exact hf hmem
    rw [fates_append, kept_append, hends, hkeeps, Nat.add_zero,
      decide_eq_false hne, Bool.or_false]
    exact h.unknown f hf
  · intro f hf
    rw [hsame] at hf
    rw [fates_append, kept_append, hends, hkeeps, Nat.add_zero,
      decide_eq_false hf.symm, Bool.or_false]
    exact h.replaced f hf
  · intro _
    rw [hsame, hnot, fates_append, kept_append, hends, hkeeps, hsubmitted,
      hcount]
    exact ⟨hmem, hfates, by simp, fun _ => Nat.succ_pos _⟩
  · exact h.always.snoc (replacesEnded_of_ne (by simp) _)

/-- The next frame becomes current. -/
theorem Ledger.opened (h : Ledger base s events) {header : FecHeader}
    (hframe : header.frameIndex ≠ noFrame)
    (hlater : s.currentFrame ≠ noFrame →
      position base s.currentFrame < position base header.frameIndex)
    (hover : s.currentFrame ≠ noFrame → s.frameSubmitted = false →
      s.receivedCount = 0) :
    Ledger base (openFrame s header)
      (events ++ [.becameCurrent header.frameIndex]) := by
  have hbefore : ∀ f, .becameCurrent f ∈ events →
      position base f < position base header.frameIndex := by
    intro f hf
    obtain ⟨hne, hle⟩ := h.past f hf
    exact lt_of_le_of_lt hle (hlater hne)
  have hfresh : .becameCurrent header.frameIndex ∉ events := fun hmem =>
    lt_irrefl _ (hbefore _ hmem)
  have hall : ∀ f, fates f events = (kept f events).toNat := by
    intro f
    by_cases hf : f = s.currentFrame
    · subst hf
      by_cases hcurrent : s.currentFrame = noFrame
      · obtain ⟨hzero, hnone⟩ := h.unknown s.currentFrame fun hmem =>
          (h.past _ hmem).1 hcurrent
        rw [hzero, hnone]
        rfl
      · obtain ⟨-, hfates, hkept, hsub⟩ := h.current hcurrent
        rw [hfates, hkept]
        cases hsubmitted : s.frameSubmitted with
        | false => simp [hover hcurrent hsubmitted]
        | true => simp [hsub hsubmitted]
    · exact h.replaced f hf
  have hends (f : UInt32) :
      fates f [FecEvent.becameCurrent header.frameIndex] = 0 := rfl
  have hkeeps (f : UInt32) :
      kept f [FecEvent.becameCurrent header.frameIndex] = false := rfl
  constructor
  · intro f hf
    refine ⟨hframe, ?_⟩
    rcases List.mem_append.mp hf with hf | hf
    · exact (hbefore f hf).le
    · rw [FecEvent.becameCurrent.inj (List.mem_singleton.mp hf)]
      exact le_refl _
  · intro f hf
    rw [fates_append, kept_append, hends, hkeeps, Nat.add_zero, Bool.or_false]
    exact h.unknown f fun hmem => hf (List.mem_append_left _ hmem)
  · intro f _
    rw [fates_append, kept_append, hends, hkeeps, Nat.add_zero, Bool.or_false]
    exact hall f
  · intro _
    obtain ⟨hzero, hnone⟩ := h.unknown _ hfresh
    refine ⟨by simp [openFrame], ?_, ?_, fun hsub => Bool.noConfusion hsub⟩
    · rw [fates_append, hends, Nat.add_zero]
      exact hzero
    · rw [kept_append, hkeeps, Bool.or_false]
      exact hnone
  · refine h.always.snoc ?_
    rintro g hg f hf
    obtain rfl := FecEvent.becameCurrent.inj hg
    exact ⟨hbefore f hf, hall f⟩

/-! ## The ledger of a call -/

/-- The ledger of the events since a start. -/
def HasLedger (base : UInt32) (start : List FecEvent) (s : Fec) : Prop :=
  ∃ events, s.out = start ++ events ∧ Ledger base s events

variable {start : List FecEvent}

/-- A step that adds neutral events keeps the ledger. -/
theorem HasLedger.neutral (h : HasLedger base start s)
    (hcurrent : t.currentFrame = s.currentFrame)
    (hsubmitted : t.frameSubmitted = s.frameSubmitted)
    (hcount : t.receivedCount = s.receivedCount) {l : List FecEvent}
    (hout : t.out = s.out ++ l) (hnew : ∀ e ∈ l, e.isNeutral) :
    HasLedger base start t := by
  obtain ⟨events, hs, hledger⟩ := h
  exact ⟨events ++ l, by rw [hout, hs, List.append_assoc],
    hledger.neutral hcurrent hsubmitted hcount hnew⟩

theorem HasLedger.concluded (h : HasLedger base start s)
    (hcurrent : s.currentFrame ≠ noFrame)
    (hopen : s.frameSubmitted = false) (hpos : 0 < s.receivedCount)
    (ht : Concluded s t) : HasLedger base start t := by
  obtain ⟨quiet, fate, hout, hquiet, hend⟩ := ht.out
  obtain ⟨events, hs, hledger⟩ := h
  refine ⟨events ++ quiet ++ [fate], ?_, ?_⟩
  · rw [hout, hs]
    simp only [List.append_assoc]
  · exact (hledger.neutral (t := s) rfl rfl rfl
      fun e he => isNeutral_of_isQuiet (hquiet e he)).ended hcurrent hopen hpos
      ht.same.currentFrame ht.submitted ht.same.receivedCount hend

theorem hasLedger_concludeFrame (env : FecEnv) (hs : FecInv s)
    (h : HasLedger base start s) :
    HasLedger base start (concludeFrame env s) := by
  rw [concludeFrame]
  split
  · rename_i hguard
    exact h.concluded hguard.1 (by simpa using hguard.2.1) hguard.2.2
      (hs.concluded env (.inl hguard.2.2))
  · exact h

theorem hasLedger_openFrame {header : FecHeader}
    (h : HasLedger base start s) (hframe : header.frameIndex ≠ noFrame)
    (hlater : s.currentFrame ≠ noFrame →
      position base s.currentFrame < position base header.frameIndex)
    (hover : s.currentFrame ≠ noFrame → s.frameSubmitted = false →
      s.receivedCount = 0) :
    HasLedger base start (openFrame s header) := by
  obtain ⟨events, hs, hledger⟩ := h
  exact ⟨events ++ [.becameCurrent header.frameIndex],
    by rw [← List.append_assoc, ← hs]; rfl,
    hledger.opened hframe hlater hover⟩

theorem hasLedger_placePacket (env : FecEnv) (hs : FecInv s)
    {packet : Packet} {header : FecHeader} (hh : Taken packet header)
    (hcurrent : s.currentFrame ≠ noFrame) (h : HasLedger base start s) :
    HasLedger base start (placePacket env s header packet).2 := by
  have hinv := fecInv_step (.register hh) hs
  have hregister : HasLedger base start (registerBlock s header) := by
    rw [registerBlock]
    split
    · exact h.neutral rfl rfl rfl (List.append_nil _).symm (by simp)
    · exact h
  have hcurrent' : (registerBlock s header).currentFrame ≠ noFrame := by
    rw [registerBlock]
    split <;> exact hcurrent
  rw [placePacket]
  split
  · exact hregister
  rename_i index hslot
  have hstore := fecInv_storePacket hinv hh hslot
  have hsizes := storePacket_sizes (registerBlock s header) header index packet
  have hledger : HasLedger base start
      (storePacket (registerBlock s header) header index packet) := by
    by_cases hsome : ((registerBlock s header).slots index).isSome
    · rwa [storePacket_of_isSome header packet hsome]
    · obtain ⟨-, -, hcount, hout⟩ := storePacket_of_isNone header packet hsome
      obtain ⟨events, hs', hl⟩ := hregister
      exact ⟨events ++ [.stored _ index header],
        by rw [hout, hs', List.append_assoc],
        hl.stored hcurrent' hsizes.currentFrame hsizes.frameSubmitted hcount
          index header⟩
  rw [submitIfReady]
  split
  · rename_i hready
    have hkept := storePacket_isSome (registerBlock s header) header index
      packet
    exact hledger.concluded (by rw [hsizes.currentFrame]; exact hcurrent')
      (by simpa using hready.1) (hstore.counted index hkept)
      (hstore.concluded env (.inr ⟨index, hkept⟩))
  · exact hledger

theorem hasLedger_enterFrame (env : FecEnv) (hs : FecInv s)
    {header : FecHeader} (hframe : header.frameIndex ≠ noFrame) (hold : NotOlder base s header)
    (h : HasLedger base start s) :
    HasLedger base start (enterFrame env s header) := by
  rw [enterFrame]
  split
  · rename_i hnew
    have hcurrent := concludeFrame_currentFrame env hs
    refine hasLedger_openFrame (hasLedger_concludeFrame env hs h) hframe ?_
      (concludeFrame_over env hs)
    rw [hcurrent]
    intro hne
    exact lt_of_le_of_ne (hold hne) fun heq =>
      hnew (position_injective heq).symm
  · exact h

theorem keptInOrder_hasLedger {Q : Packet → Prop} (hrange : InRange base Q)
    (env : FecEnv) : KeptInOrder base Q env (HasLedger base start) where
  conclude := fun s hs h => hasLedger_concludeFrame env hs.inv h
  queue := fun s q h =>
    h.neutral rfl rfl rfl (List.append_nil _).symm (by simp)
  late := fun s frame replayed h =>
    h.neutral (l := [_]) rfl rfl rfl rfl (by simp [FecEvent.isNeutral])
  take := fun s packet header hs hQ hh hold h => by
    obtain ⟨-, hframe⟩ := hrange packet header hQ hh.parse
    refine hasLedger_placePacket env
      (fecInv_steps (enterFrame_steps env hs.inv hh) hs.inv) hh ?_
      (hasLedger_enterFrame env hs.inv hframe hold h)
    rw [enterFrame_currentFrame]
    exact hframe

/-! ## Frames that are opened by a packet with a slot -/

/-- The frame is in one block, or the packet is in one of its blocks and has a
slot there. -/
def HasSlot (packet : Packet) : Prop :=
  ∀ h, parseFecHeader packet = some h → h.multiFecTotal = 1 ∨
    (h.fecBlockNum < h.multiFecTotal ∧
      h.fecIndex < slotsPerBlock h.multiFecTotal)

/-- A frame that is replaced had a packet put into a slot. -/
def ReplacesKept (before : List FecEvent) (e : FecEvent) : Prop :=
  ∀ g, e = .becameCurrent g → ∀ f, .becameCurrent f ∈ before →
    kept f before = true

/-- Since a start, every frame that became current has a packet in a slot. -/
def AllKept (start : List FecEvent) (s : Fec) : Prop :=
  ∃ events, s.out = start ++ events ∧
    (∀ f, .becameCurrent f ∈ events → kept f events = true) ∧
    Always ReplacesKept events

theorem kept_append_of_kept {f : UInt32} {l : List FecEvent}
    (h : kept f l = true) (m : List FecEvent) : kept f (l ++ m) = true := by
  rw [kept_append, h, Bool.true_or]

/-- Events that open no frame keep that. -/
theorem AllKept.append (h : AllKept start s) {l : List FecEvent}
    (hout : t.out = s.out ++ l) (hnew : ∀ g, .becameCurrent g ∉ l) :
    AllKept start t := by
  obtain ⟨events, hs, hkept, halways⟩ := h
  refine ⟨events ++ l, by rw [hout, hs, List.append_assoc], ?_, ?_⟩
  · intro f hf
    rcases List.mem_append.mp hf with hf | hf
    · exact kept_append_of_kept (hkept f hf) l
    · exact absurd hf (hnew f)
  · refine halways.append fun e he before g hg => ?_
    subst hg
    exact absurd he (hnew g)

/-- A frame whose first packet is put into a slot keeps that. -/
theorem AllKept.opened (h : AllKept start s) (f : UInt32) (slot : ℕ)
    (header : FecHeader)
    (hout : t.out = s.out ++ [.becameCurrent f] ++ [.stored f slot header]) :
    AllKept start t := by
  obtain ⟨events, hs, hkept, halways⟩ := h
  refine ⟨events ++ [.becameCurrent f] ++ [.stored f slot header], ?_, ?_, ?_⟩
  · rw [hout, hs]
    simp only [List.append_assoc]
  · intro g hg
    have hg : FecEvent.becameCurrent g ∈ events ∨ g = f := by simpa using hg
    rcases hg with hg | rfl
    · rw [List.append_assoc]
      exact kept_append_of_kept (hkept g hg) _
    · simp [kept, FecEvent.keeps]
  · refine (halways.snoc ?_).snoc ?_
    · rintro g - f hf
      exact hkept f hf
    · rintro g hg
      exact absurd hg (by simp)

/-- Whether the event is about the current frame. -/
def FecEvent.isOfFrame : FecEvent → Bool
  | .becameCurrent _ => false
  | .late _ _ => false
  | _ => true

theorem not_mem_becameCurrent {new : List FecEvent}
    (hnew : ∀ e ∈ new, e.isOfFrame) (g : UInt32) : .becameCurrent g ∉ new :=
  fun hg => Bool.noConfusion (hnew _ hg)

theorem isOfFrame_of_concluded (ht : Concluded s t) :
    ∃ new, t.out = s.out ++ new ∧ ∀ e ∈ new, e.isOfFrame := by
  obtain ⟨quiet, fate, hout, hquiet, hend⟩ := ht.out
  refine ⟨quiet ++ [fate], by rw [hout, List.append_assoc], ?_⟩
  intro e he
  rcases List.mem_append.mp he with he | he
  · have hq := hquiet e he
    cases e <;> first | rfl | exact hq
  · rw [← List.mem_singleton.mp he] at hend
    cases hend <;> rfl

theorem allKept_concludeFrame (env : FecEnv) (hs : FecInv s)
    (h : AllKept start s) : AllKept start (concludeFrame env s) := by
  rw [concludeFrame]
  split
  · rename_i hguard
    obtain ⟨new, hout, hnew⟩ :=
      isOfFrame_of_concluded (hs.concluded env (.inl hguard.2.2))
    exact h.append hout (not_mem_becameCurrent hnew)
  · exact h

/-- The packet that opens a frame has a slot. -/
theorem slotIndex_openFrame {packet : Packet} {header : FecHeader}
    (hh : Taken packet header) (hslot : HasSlot packet) (s : Fec) :
    ∃ index, slotIndex (registerBlock (openFrame s header) header) header =
      some index := by
  have hshape := shaped_registerBlock (shaped_openFrame hh s) hh.data_le
  have hle := hh.blocks_le
  have hpos := hh.blocks_pos
  have hindex := hh.index_lt
  have htotal := hh.total_le
  have hnum : (openFrame s header).numFecBlocks = header.multiFecTotal := by
    simp only [openFrame]
    omega
  have hnum' : (registerBlock (openFrame s header) header).numFecBlocks =
      header.multiFecTotal := by
    rw [registerBlock]
    split <;> exact hnum
  simp only [slotIndex]
  by_cases hmulti : header.multiFecTotal > 1
  · obtain ⟨hblock, hroom⟩ := (hslot header hh.parse).resolve_left (by omega)
    have hmax := hshape.max header.fecBlockNum
    rw [hnum'] at hmax
    have hlt := hshape.slot_lt (hnum'.symm ▸ hblock) (hmax.symm ▸ hroom)
    rw [if_pos (by omega), if_neg (by omega)]
    exact ⟨_, Option.filter_eq_some_iff.mpr ⟨rfl, by simpa using hlt⟩⟩
  · have hsame : registerBlock (openFrame s header) header =
        openFrame s header := by
      rw [registerBlock, if_neg]
      rintro ⟨hgt, -⟩
      omega
    have hsub : (header.seq - (openFrame s header).lowestSeq).toNat =
        header.fecIndex := by
      have hback : header.seq - (header.seq - UInt16.ofNat header.fecIndex) =
          UInt16.ofNat header.fecIndex := by grind
      simp only [openFrame, hback]
      simp only [fecMaxPackets] at htotal
      rw [UInt16.toNat_ofNat_of_lt']
      simp only [UInt16.size]
      omega
    have htotal' : (openFrame s header).totalPackets = header.totalPkts := rfl
    rw [hsame, if_neg (by omega), if_neg (by omega), hsub]
    exact ⟨_, Option.filter_eq_some_iff.mpr ⟨rfl, by simp; omega⟩⟩

theorem registerBlock_out (s : Fec) (header : FecHeader) :
    (registerBlock s header).out = s.out := by
  rw [registerBlock]
  split <;> rfl

theorem submitIfReady_out (env : FecEnv) (hs : FecInv s) {i : ℕ}
    (hi : (s.slots i).isSome) :
    ∃ new, (submitIfReady env s).out = s.out ++ new ∧
      ∀ e ∈ new, e.isOfFrame := by
  rw [submitIfReady]
  split
  · exact isOfFrame_of_concluded (hs.concluded env (.inr ⟨i, hi⟩))
  · exact ⟨[], (List.append_nil _).symm, by simp⟩

/-- Placing a packet opens no frame. -/
theorem placePacket_out (env : FecEnv) (hs : FecInv s) {packet : Packet}
    {header : FecHeader} (hh : Taken packet header) :
    ∃ new, (placePacket env s header packet).2.out = s.out ++ new ∧
      ∀ e ∈ new, e.isOfFrame := by
  have hinv := fecInv_step (.register hh) hs
  rw [placePacket]
  split
  · exact ⟨[], by rw [registerBlock_out, List.append_nil], by simp⟩
  rename_i index hslot
  have hkept := storePacket_isSome (registerBlock s header) header index packet
  obtain ⟨new, hout, hnew⟩ := submitIfReady_out env
    (fecInv_storePacket hinv hh hslot) hkept
  by_cases hsome : ((registerBlock s header).slots index).isSome
  · rw [storePacket_of_isSome header packet hsome] at hout ⊢
    exact ⟨new, by rw [hout, registerBlock_out], hnew⟩
  · rw [(storePacket_of_isNone header packet hsome).2.2.2, registerBlock_out,
      List.append_assoc] at hout
    refine ⟨_, hout, fun e he => ?_⟩
    rcases List.mem_cons.mp he with rfl | he
    · rfl
    · exact hnew e he

/-- The packet that opens a frame is put into a slot at once. -/
theorem placePacket_openFrame_out (env : FecEnv) {packet : Packet}
    {header : FecHeader} (hh : Taken packet header) (hslot : HasSlot packet)
    (s : Fec) :
    ∃ index new, (placePacket env (openFrame s header) header packet).2.out =
        s.out ++ [.becameCurrent header.frameIndex] ++
          [.stored header.frameIndex index header] ++ new ∧
      ∀ e ∈ new, e.isOfFrame := by
  have hopened : FecInv (openFrame s header) :=
    ⟨.inr (shaped_openFrame hh s),
      fun _ p (h : none = some p) => (Option.some_ne_none p h.symm).elim,
      fun _ (h : (none : Option Packet).isSome) => Bool.noConfusion h⟩
  have hinv := fecInv_step (.register hh) hopened
  have hout := registerBlock_out (openFrame s header) header
  obtain ⟨index, hindex⟩ := slotIndex_openFrame hh hslot s
  have hempty : ¬((registerBlock (openFrame s header) header).slots
      index).isSome := by
    rw [registerBlock]
    split <;> simp [openFrame]
  have hframe : (registerBlock (openFrame s header) header).currentFrame =
      header.frameIndex := by
    rw [registerBlock]
    split <;> rfl
  obtain ⟨new, hnew, hnone⟩ := submitIfReady_out env
    (fecInv_storePacket hinv hh hindex)
    (storePacket_isSome (registerBlock (openFrame s header) header) header index
      packet)
  refine ⟨index, new, ?_, hnone⟩
  rw [placePacket, hindex]
  simp only
  rw [hnew, (storePacket_of_isNone header packet hempty).2.2.2, hout, hframe]
  rfl

theorem allKept_take (env : FecEnv) (hs : FecInv s) {packet : Packet}
    {header : FecHeader} (hh : Taken packet header) (hslot : HasSlot packet)
    (h : AllKept start s) :
    AllKept start (placePacket env (enterFrame env s header) header
      packet).2 := by
  rw [enterFrame]
  split
  · have hconclude := allKept_concludeFrame env hs h
    obtain ⟨index, new, hout, hnew⟩ := placePacket_openFrame_out env hh hslot
      (concludeFrame env s)
    have hopened : AllKept start { concludeFrame env s with
        out := (concludeFrame env s).out ++
          [.becameCurrent header.frameIndex] ++
            [.stored header.frameIndex index header] } :=
      hconclude.opened header.frameIndex index header rfl
    exact hopened.append hout (not_mem_becameCurrent hnew)
  · obtain ⟨new, hout, hnew⟩ := placePacket_out env hs hh
    exact h.append hout (not_mem_becameCurrent hnew)

theorem keptInOrder_allKept {Q : Packet → Prop}
    (hslot : ∀ packet, Q packet → HasSlot packet) (env : FecEnv) :
    KeptInOrder base Q env (AllKept start) where
  conclude := fun s hs h => allKept_concludeFrame env hs.inv h
  queue := fun s q h => h.append (List.append_nil _).symm (by simp)
  late := fun s frame replayed h => h.append (l := [_]) rfl (by simp)
  take := fun s packet header hs hQ hh _ h =>
    allKept_take env hs.inv hh (hslot packet hQ) h

end

/-! ## Fates -/

/-- The frame index of the packet is below `0x80000000`. -/
def LowFrame (packet : Packet) : Prop :=
  ∀ h, parseFecHeader packet = some h → h.frameIndex.toNat < 0x80000000

theorem inRange_lowFrame {Q : Packet → Prop}
    (hQ : ∀ packet, Q packet → LowFrame packet) : InRange 0 Q := by
  intro packet h hpacket hparse
  have hlow := hQ packet hpacket h hparse
  refine ⟨by rwa [position_zero], fun hno => ?_⟩
  rw [hno] at hlow
  exact absurd hlow (by decide)

/-- What becomes of the frames that became current in these events: they became
current in increasing order, and each that was replaced ended exactly once, and
before that, if and only if the condition holds of the events before. -/
def FatesIff (condition : UInt32 → List FecEvent → Prop)
    (events : List FecEvent) : Prop :=
  ∀ before g after, events = before ++ .becameCurrent g :: after →
    ∀ f, .becameCurrent f ∈ before → f < g ∧
      ((fates f before = 1 ∧ fates f events = 1) ↔ condition f before)

theorem fatesIff_of_ledger {s : Fec} {events : List FecEvent}
    (h : Ledger 0 s events) :
    FatesIff (fun f before => kept f before = true) events := by
  intro before g after hevents f hf
  obtain ⟨hlt, hfates⟩ := h.always before _ after hevents g rfl f hf
  rw [position_zero, position_zero] at hlt
  refine ⟨UInt32.lt_iff_toNat_lt.mpr hlt, fun hone => ?_, fun hkept => ?_⟩
  · rw [hfates] at hone
    cases hk : kept f before with
    | true => exact hk
    | false => simp [hk] at hone
  · refine ⟨by rw [hfates, hkept]; rfl, ?_⟩
    have hg : FecEvent.becameCurrent g ∈ events := by
      rw [hevents]
      simp
    have hne : f ≠ s.currentFrame := by
      rintro rfl
      have hle := (h.past g hg).2
      rw [position_zero, position_zero] at hle
      omega
    rw [h.replaced f hne, hevents, kept_append_of_kept hkept]
    rfl

theorem hasLedger_freshStart {base : UInt32} {s : Fec} (hs : FreshStart s) :
    HasLedger base s.out s := by
  refine ⟨[], (List.append_nil _).symm, ⟨by simp, fun _ _ => ⟨rfl, rfl⟩,
    fun _ _ => rfl, fun hne => ?_, always_nil⟩⟩
  rcases hs with rfl | ⟨u, rfl⟩ <;> exact absurd rfl hne

/-- Between two resets, with frame indexes below `0x80000000`, every call ends,
the frames become current in increasing order, and a frame that is replaced has
been submitted or dropped exactly once if and only if a packet of it was put
into a slot.  If every packet has a slot, that is every frame. -/
theorem fate_of_every_frame {s : Fec} (hs : FreshStart s)
    {inputs : List FecInput} (hinputs : NoReset LowFrame inputs) :
    ∃ t events, s.run inputs = some t ∧ t.out = s.out ++ events ∧
      FatesIff (fun f before => kept f before = true) events ∧
      (NoReset HasSlot inputs → FatesIff (fun _ _ => True) events) := by
  obtain ⟨t, hrun, -, events, hout, hl⟩ := run_inOrder
    (inRange_lowFrame fun _ h => h)
    (keptInOrder_hasLedger (inRange_lowFrame fun _ h => h))
    (fun s rs h => h.neutral rfl rfl rfl (List.append_nil _).symm (by simp))
    hinputs (Ordered.of_freshStart hs) (hasLedger_freshStart hs)
  refine ⟨t, events, hrun, hout, fatesIff_of_ledger hl, fun hslots => ?_⟩
  have hboth : NoReset (fun p => LowFrame p ∧ HasSlot p) inputs := by
    intro i hi
    have hlow := hinputs i hi
    have hslot := hslots i hi
    cases i with
    | packet env packet => exact ⟨hlow, hslot⟩
    | audio block => trivial
    | reset => exact hlow
  have hrange := inRange_lowFrame (Q := fun p => LowFrame p ∧ HasSlot p)
    fun _ h => h.1
  obtain ⟨u, hrun', -, events', hout', hkept, halways⟩ := run_inOrder hrange
    (keptInOrder_allKept fun _ h => h.2)
    (fun s rs h => h.append (List.append_nil _).symm (by simp))
    hboth (Ordered.of_freshStart hs)
    (⟨[], (List.append_nil _).symm, by simp, always_nil⟩ : AllKept s.out s)
  rw [hrun] at hrun'
  obtain rfl := Option.some.inj hrun'
  rw [hout] at hout'
  obtain rfl := List.append_cancel_left hout'
  intro before g after hevents f hf
  obtain ⟨hlt, hiff⟩ := fatesIff_of_ledger hl before g after hevents f hf
  exact ⟨hlt, fun _ => trivial, fun _ => hiff.mpr
    (halways before _ after hevents g rfl f hf)⟩

/-- A frame of two packets, the first packet of another one, and a packet of a third. -/
def threeFrames : List FecInput :=
  [.packet (sampleEnv 0) (barePacket 100 7 0x00 2 0 0),
    .packet (sampleEnv 0) (barePacket 101 7 0x00 2 1 0),
    .packet (sampleEnv 0) (barePacket 102 8 0x00 2 0 0),
    .packet (sampleEnv 0) (barePacket 104 9 0x00 1 0 0)]

/-- A frame of two blocks is opened by the packet behind the slots of its first
block, and a packet of the next frame follows. -/
def frameWithoutSlot : List FecInput :=
  [.packet (sampleEnv 0) (barePacket 100 7 0x40 65 64 0),
    .packet (sampleEnv 0) (barePacket 200 8 0x00 1 0 0)]

theorem lowFrame_of_all {packet : Packet}
    (hall : (parseFecHeader packet).all
      (fun h => decide (h.frameIndex.toNat < 0x80000000)) = true) : LowFrame packet := by
  intro h hparse
  simpa [hparse] using hall

theorem noReset_frameWithoutSlot : NoReset LowFrame frameWithoutSlot := by
  intro i hi
  rcases List.mem_cons.mp hi with rfl | hi
  · exact lowFrame_of_all (by decide)
  · rw [List.mem_singleton.mp hi]
    exact lowFrame_of_all (by decide)

theorem noReset_threeFrames {Q : Packet → Prop}
    (hfirst : Q (barePacket 100 7 0x00 2 0 0)) (hsecond : Q (barePacket 101 7 0x00 2 1 0))
    (hother : Q (barePacket 102 8 0x00 2 0 0)) (hlast : Q (barePacket 104 9 0x00 1 0 0)) :
    NoReset Q threeFrames := by
  intro i hi
  simp only [threeFrames, List.mem_cons, List.not_mem_nil, or_false] at hi
  rcases hi with rfl | rfl | rfl | rfl
  · exact hfirst
  · exact hsecond
  · exact hother
  · exact hlast

theorem hasSlot_of_all {packet : Packet}
    (hall : (parseFecHeader packet).all (fun h => decide (h.multiFecTotal = 1)) = true) :
    HasSlot packet := by
  intro h hparse
  left
  simpa [hparse] using hall

/-- The first frame is submitted, the second is given up, and both have their fate. -/
theorem fate_of_every_frame_threeFrames :
    ∃ t events, Fec.initial.run threeFrames = some t ∧
      t.out = Fec.initial.out ++ events ∧ fates 7 events = 1 ∧ fates 8 events = 1 ∧
      FatesIff (fun f before => kept f before = true) events ∧
      FatesIff (fun _ _ => True) events := by
  obtain ⟨t, events, hrun, hout, hkept, hslots⟩ := fate_of_every_frame (.inl rfl)
    (noReset_threeFrames (lowFrame_of_all (by decide)) (lowFrame_of_all (by decide))
      (lowFrame_of_all (by decide)) (lowFrame_of_all (by decide)))
  have htrace : ((Fec.initial.run threeFrames).all fun t =>
      decide (fates 7 t.out = 1 ∧ fates 8 t.out = 1)) = true := by
    decide +kernel
  rw [hrun, Option.all_some, decide_eq_true_eq, hout] at htrace
  exact ⟨t, events, hrun, hout, htrace.1, htrace.2, hkept,
    hslots (noReset_threeFrames (hasSlot_of_all (by decide)) (hasSlot_of_all (by decide))
      (hasSlot_of_all (by decide)) (hasSlot_of_all (by decide)))⟩

/-- Nothing becomes of the frame without a slot before the next one becomes
current. -/
theorem no_fate_without_slot :
    NoReset LowFrame frameWithoutSlot ∧
      ∃ events after, fecTrace frameWithoutSlot = some events ∧
        events = [.becameCurrent 7] ++ .becameCurrent 8 :: after ∧
        fates 7 events = 0 := by
  refine ⟨noReset_frameWithoutSlot, ?_⟩
  have h : ((fecTrace frameWithoutSlot).any fun events =>
      decide (events = .becameCurrent 7 :: .becameCurrent 8 :: events.drop 2 ∧
        fates 7 events = 0)) = true := by
    decide +kernel
  cases htrace : fecTrace frameWithoutSlot with
  | none => simp [htrace] at h
  | some events =>
      rw [htrace, Option.any_some, decide_eq_true_eq] at h
      exact ⟨events, events.drop 2, rfl, h.1, h.2⟩

end MoonlightPsp.RtpFec
