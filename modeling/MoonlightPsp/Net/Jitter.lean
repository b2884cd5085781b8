import MoonlightPsp.Net.Rtcp
import Mathlib.Data.List.Chain

/-!
# The jitter estimate

As long as the timestamps do not go back, the estimate is no larger than the largest
deviation of an arrival from its timestamp.
-/

namespace MoonlightPsp.Net

open SerialNumber

namespace Arrival

/-- `rtp_timestamp`. -/
def timestamp (a : Arrival) : UInt32 := readBe32 a.packet 4

/-- How far the second arrival is off: the time that has gone by, less what the
timestamps say, as a signed number. -/
def deviation (a b : Arrival) : ℕ :=
  (((rtcpUsToRtp90k (b.nowUs - a.nowUs)).toNat : ℤ) -
    delta b.timestamp a.timestamp).natAbs

/-- The second packet was not overtaken by the first one. -/
def InOrder (a b : Arrival) : Prop := 0 ≤ delta b.timestamp a.timestamp

instance (a b : Arrival) : Decidable (a.InOrder b) := inferInstanceAs (Decidable (0 ≤ _))

end Arrival

/-- The arrivals with a header. -/
def headed (arrivals : List Arrival) : List Arrival :=
  arrivals.filter fun a => 12 ≤ a.packet.length

/-- The deviation of each arrival from the one before. -/
def deviations : List Arrival → List ℕ
  | a :: b :: rest => a.deviation b :: deviations (b :: rest)
  | _ => []

/-- The largest of them. -/
def largest (l : List ℕ) : ℕ := l.foldl max 0

variable {s : RtcpStats} {a b : Arrival}

/-- The estimate moves towards the difference, and not past it. -/
theorem updateJitter_le {jitter : UInt32} {diff : ℤ} (hdiff : diff.natAbs < 2 ^ 32) :
    (updateJitter jitter diff).toNat ≤ max jitter.toNat diff.natAbs := by
  have hjitter := jitter.toNat_lt
  have habs : (if diff < 0 then -diff else diff) = (diff.natAbs : ℤ) := by
    split
    · omega
    · omega
  simp only [updateJitter]
  rw [habs]
  generalize diff.natAbs = d at *
  split
  · rename_i hmore
    have hstep : ((((d : ℤ) - jitter.toNat) + 8) / 16).toNat = (d - jitter.toNat + 8) / 16 := by
      omega
    have hle : (d - jitter.toNat + 8) / 16 ≤ d - jitter.toNat := by omega
    rw [hstep, UInt32.toNat_add, UInt32.toNat_ofNat', Nat.mod_eq_of_lt (by omega),
      Nat.mod_eq_of_lt (by omega)]
    omega
  · split
    · exact Nat.zero_le _
    · rename_i hless hdecay
      rw [UInt32.toNat_sub_of_le _ _ (UInt32.not_lt.mp hdecay)]
      omega

/-- A packet with a header moves the estimate by its deviation from the one before. -/
theorem receive_jitter (htime : s.lastArrivalUs = a.nowUs)
    (hstamp : s.lastRtpTimestamp = a.timestamp) (hb : 12 ≤ b.packet.length)
    (horder : a.InOrder b) :
    (s.receive b.nowUs b.packet).jitterRtp.toNat ≤ max s.jitterRtp.toNat (a.deviation b) := by
  obtain ⟨u, -, -, hjitter, hlast, hold, hu⟩ := RtcpStats.receive_of_le hb s b.nowUs
  obtain ⟨hj, hl, ho⟩ := u.recordSeq_arrivals (readBe16 b.packet 2)
  rw [hu, RtcpStats.recordArrival]
  simp only [hj, hl, ho, hjitter, hlast, hold, htime, hstamp]
  split
  · -- going forward, the difference of the timestamps is what the processor subtracts
    have hforward : ((readBe32 b.packet 4 - a.timestamp).toNat : ℤ) =
        delta b.timestamp a.timestamp := by
      have hpos : 0 ≤ delta b.timestamp a.timestamp := horder
      have hlt := (b.timestamp - a.timestamp).toNat_lt
      simp only [delta] at hpos ⊢
      split at hpos
      · rename_i hhalf
        rw [if_pos hhalf]
        rfl
      · omega
    rw [hforward]
    apply updateJitter_le
    have hlt := (rtcpUsToRtp90k (b.nowUs - a.nowUs)).toNat_lt
    have hword := (readBe32 b.packet 4 - a.timestamp).toNat_lt
    omega
  · exact Nat.le_max_left _ _

theorem receive_last (hb : 12 ≤ b.packet.length) :
    (s.receive b.nowUs b.packet).lastArrivalUs = b.nowUs ∧
      (s.receive b.nowUs b.packet).lastRtpTimestamp = b.timestamp := by
  obtain ⟨u, -, -, -, -, -, hu⟩ := RtcpStats.receive_of_le hb s b.nowUs
  rw [hu]
  exact ⟨rfl, rfl⟩

theorem receive_of_short (hb : ¬12 ≤ b.packet.length) :
    s.receive b.nowUs b.packet = { s with pktsReceived := s.pktsReceived + 1 } := by
  rw [RtcpStats.receive]
  exact if_neg hb

/-- From some packet on. -/
theorem run_jitter {arrivals : List Arrival} {m : ℕ} (htime : s.lastArrivalUs = a.nowUs)
    (hstamp : s.lastRtpTimestamp = a.timestamp) (hm : s.jitterRtp.toNat ≤ m)
    (horder : (a :: headed arrivals).IsChain Arrival.InOrder) :
    (s.run arrivals).jitterRtp.toNat ≤ (deviations (a :: headed arrivals)).foldl max m := by
  induction arrivals generalizing s a m with
  | nil => exact hm
  | cons b rest ih =>
      by_cases hb : 12 ≤ b.packet.length
      · have hheaded : headed (b :: rest) = b :: headed rest := by
          rw [headed, List.filter_cons_of_pos (by simpa using hb)]
          rfl
        rw [hheaded] at horder ⊢
        obtain ⟨hfirst, hrest⟩ := List.isChain_cons_cons.mp horder
        obtain ⟨hnow, hts⟩ := receive_last (s := s) hb
        apply ih hnow hts
        · calc _ ≤ max s.jitterRtp.toNat (a.deviation b) :=
                receive_jitter htime hstamp hb hfirst
            _ ≤ max m (a.deviation b) := max_le_max hm (le_refl _)
        · exact hrest
      · have hheaded : headed (b :: rest) = headed rest := by
          rw [headed, List.filter_cons_of_neg (by simpa using hb)]
          rfl
        rw [hheaded] at horder ⊢
        have hshort := receive_of_short (s := s) hb
        show ((s.receive b.nowUs b.packet).run rest).jitterRtp.toNat ≤ _
        rw [hshort]
        exact ih htime hstamp hm horder

/-- As long as the timestamps do not go back, the estimate is at most the largest
deviation. -/
theorem jitter_run {arrivals : List Arrival}
    (horder : (headed arrivals).IsChain Arrival.InOrder) :
    (RtcpStats.initial.run arrivals).jitterRtp.toNat ≤
      largest (deviations (headed arrivals)) := by
  have hstart : ∀ s : RtcpStats, s.lastArrivalUs = 0 → s.jitterRtp = 0 →
      (s.run arrivals).jitterRtp.toNat ≤ largest (deviations (headed arrivals)) := by
    induction arrivals with
    | nil =>
        intro s _ hjitter
        show s.jitterRtp.toNat ≤ _
        rw [hjitter]
        exact Nat.zero_le _
    | cons a rest ih =>
        intro s hzero hjitter
        by_cases ha : 12 ≤ a.packet.length
        · have hheaded : headed (a :: rest) = a :: headed rest := by
            rw [headed, List.filter_cons_of_pos (by simpa using ha)]
            rfl
          rw [hheaded] at horder ⊢
          obtain ⟨hnow, hts⟩ := receive_last (s := s) ha
          refine run_jitter hnow hts ?_ horder
          obtain ⟨u, -, -, hu, hlast, -, hreceive⟩ := RtcpStats.receive_of_le ha s a.nowUs
          obtain ⟨hj, hl, -⟩ := u.recordSeq_arrivals (readBe16 a.packet 2)
          rw [hreceive, RtcpStats.recordArrival]
          simp only [hl, hlast, hzero, ne_eq, not_true, if_false, hj, hu, hjitter]
          exact le_refl 0
        · have hheaded : headed (a :: rest) = headed rest := by
            rw [headed, List.filter_cons_of_neg (by simpa using ha)]
            rfl
          rw [hheaded] at horder ⊢
          show ((s.receive a.nowUs a.packet).run rest).jitterRtp.toNat ≤ _
          rw [receive_of_short ha]
          exact ih horder _ hzero hjitter
  exact hstart .initial rfl rfl

/-- Two packets a thirtieth of a second apart; the second one has been under way for ten
milliseconds more. -/
theorem jitter_run_sample :
    let arrivals := [Arrival.mk 1000000 (headerPacket 0 1 3000).packet,
      Arrival.mk 1043333 (headerPacket 0 2 6000).packet]
    (RtcpStats.initial.run arrivals).jitterRtp.toNat ≤
      largest (deviations (headed arrivals)) :=
  jitter_run (by decide)

/-- The second packet was overtaken: the deviation is 6000, the estimate goes up to
268435081. -/
theorem jitter_overtaken :
    let arrivals := [Arrival.mk 1000000 (headerPacket 0 2 6000).packet,
      Arrival.mk 1033333 (headerPacket 0 1 3000).packet]
    largest (deviations (headed arrivals)) = 6000 ∧
      (RtcpStats.initial.run arrivals).jitterRtp = 268435081 := by
  decide

end MoonlightPsp.Net
