import Mathlib.Algebra.Group.Nat.Defs
import Mathlib.Data.List.Nodup
import MoonlightPsp.Control.Threads

/-!
# Initialisation vectors of the control channel

A sender takes an encryption number and later encrypts under it; between the two
other senders do the same.  The numbers come from one counter, which wraps and
which every start of the control stream sets back to zero.
-/

namespace MoonlightPsp.Control

/-! ## Sessions -/

/-- What `control_stream_start` sets up before the handshake. -/
def controlStreamStart (c : Globals) : Globals :=
  retxClear
    { c with
      cryptoReady := true
      socketOpen := true
      nextCtrlEncSeq := 0
      reliableSeqPerCh := fun _ => 1
      inputRetxRing := fun _ => .zero
      inputQueued := 0
      inputAcked := 0
      inputRetries := 0 }

/-- What `control_stream_stop` leaves behind. -/
def controlStreamStop (c : Globals) : Globals :=
  { c with
    cryptoReady := false
    socketOpen := false
    ctrlRunning := false
    inputRetxRing := fun _ => .zero }

/-! ## Encryptions -/

/-- A message that has its encryption number. -/
structure Job where
  seq : UInt32
  msgType : UInt16
  payload : List UInt8
deriving DecidableEq

/-- The vector it is encrypted under. -/
def Job.iv (job : Job) : List UInt8 := controlIv job.seq

/-- What is encrypted. -/
def Job.plaintext (job : Job) : List UInt8 :=
  controlPlaintext job.msgType job.payload

/-- The first part of a builder: the checks, and the number. -/
def beginMsg (c : Globals) (taken : Bool) (msgType : UInt16)
    (payload : List UInt8) : Option (Job × Globals) :=
  if !c.cryptoReady then none
  else if payload.length > payloadMax then none
  else
    match allocCtrlEncSeq c taken with
    | none => none
    | some (seq, c') => some (⟨seq, msgType, payload⟩, c')

/-- A builder is its first part, followed by one encryption under the vector of
the job. -/
theorem encryptMsg_eq_begin (gcm : Gcm) (env : BuildEnv) (c : Globals)
    (msgType : UInt16) (payload : List UInt8) :
    encryptMsg gcm env c msgType payload =
      match beginMsg c env.encSeqTaken msgType payload with
      | none => (none, c)
      | some (job, c') =>
          if !env.gcmTaken then (none, c')
          else (encryptedBlob gcm job.seq job.msgType job.payload, c') := by
  unfold encryptMsg beginMsg
  by_cases hready : (!c.cryptoReady) = true
  · rw [if_pos hready, if_pos hready]
  rw [if_neg hready, if_neg hready]
  by_cases hlength : payload.length > payloadMax
  · rw [if_pos hlength, if_pos hlength]
  rw [if_neg hlength, if_neg hlength]
  cases allocCtrlEncSeq c env.encSeqTaken with
  | none => rfl
  | some taken => rfl

/-! ## Runs -/

/-- The globals, the messages that have a number and are not encrypted yet, and
those that were, in order. -/
structure CryptoState where
  globals : Globals
  jobs : List Job
  encrypted : List Job

/-- After a start, with no message under way. -/
def CryptoState.start (c : Globals) : CryptoState :=
  ⟨controlStreamStart c, [], []⟩

/-- A step of any of the threads. -/
inductive CryptoEvent where
  /-- A sender takes a number for its message. -/
  | begin (msgType : UInt16) (payload : List UInt8)
  /-- A sender encrypts its message. -/
  | encrypt (job : Job)
  /-- It does not get the semaphore of the cipher. -/
  | abandon (job : Job)
  | stop
  | restart
deriving DecidableEq

def cryptoStep (s : CryptoState) : CryptoEvent → Option CryptoState
  | .begin msgType payload =>
      match beginMsg s.globals true msgType payload with
      | none => none
      | some (job, c) => some { s with globals := c, jobs := s.jobs ++ [job] }
  | .encrypt job =>
      if job ∈ s.jobs then
        some { s with
          jobs := s.jobs.erase job
          encrypted := s.encrypted ++ [job] }
      else none
  | .abandon job =>
      if job ∈ s.jobs then some { s with jobs := s.jobs.erase job } else none
  | .stop => some { s with globals := controlStreamStop s.globals }
  | .restart => some { s with globals := controlStreamStart s.globals }

/-- A run from `s`, if every step is possible. -/
def cryptoRun (s : CryptoState) : List CryptoEvent → Option CryptoState
  | [] => some s
  | e :: es => (cryptoStep s e).bind fun s' => cryptoRun s' es

/-- No two different texts were encrypted under one vector. -/
def VectorsUnique (s : CryptoState) : Prop :=
  ∀ a ∈ s.encrypted, ∀ b ∈ s.encrypted, a.iv = b.iv →
    a.plaintext = b.plaintext

/-- A step that takes a number. -/
def CryptoEvent.takes : CryptoEvent → Bool
  | .begin _ _ => true
  | _ => false

/-! ## Vectors and numbers -/

/-- Four bytes written in little-endian order read back. -/
theorem readLe32_putLe32 (v : UInt32) (rest : List UInt8) :
    readLe32 (putLe32 v ++ rest) 0 = v := by
  show v.toUInt8.toUInt32 ||| ((v >>> 8).toUInt8.toUInt32 <<< 8) |||
    ((v >>> 16).toUInt8.toUInt32 <<< 16) |||
    ((v >>> 24).toUInt8.toUInt32 <<< 24) = v
  apply UInt32.eq_of_toBitVec_eq
  simp only [UInt32.toBitVec_or, UInt32.toBitVec_shiftLeft,
    UInt8.toBitVec_toUInt32, UInt32.toBitVec_toUInt8,
    UInt32.toBitVec_shiftRight]
  ext i hi
  rcases Nat.lt_or_ge i 8 with h8 | h8
  · simp [h8, show i < 16 by omega, show i < 24 by omega,
      BitVec.getLsbD_eq_getElem hi]
  rcases Nat.lt_or_ge i 16 with h16 | h16
  · simp [show ¬ i < 8 by omega, h16, show i < 24 by omega,
      show i - 8 < 8 by omega, show 8 + (i - 8) = i by omega,
      BitVec.getLsbD_eq_getElem hi]
  rcases Nat.lt_or_ge i 24 with h24 | h24
  · simp [show ¬ i < 8 by omega, show ¬ i < 16 by omega, h24,
      show ¬ i - 8 < 8 by omega, show i - 16 < 8 by omega,
      show 16 + (i - 16) = i by omega, BitVec.getLsbD_eq_getElem hi]
  · simp [show ¬ i < 8 by omega, show ¬ i < 16 by omega,
      show ¬ i < 24 by omega, show ¬ i - 8 < 8 by omega,
      show ¬ i - 16 < 8 by omega, show i - 24 < 8 by omega,
      show 24 + (i - 24) = i by omega, BitVec.getLsbD_eq_getElem hi]

theorem controlIv_inj {a b : UInt32} (h : controlIv a = controlIv b) :
    a = b := by
  have hread := congrArg (fun p => readLe32 p 0) h
  simpa only [controlIv, readLe32_putLe32] using hread

/-! ## One start -/

/-- The numbers in use are those below the count of numbers taken, each once. -/
structure CryptoInv (count : ℕ) (s : CryptoState) : Prop where
  next : s.globals.nextCtrlEncSeq = UInt32.ofNat count
  nodup : ((s.jobs ++ s.encrypted).map (·.seq.toNat)).Nodup
  lt : ∀ job ∈ s.jobs ++ s.encrypted, job.seq.toNat < count

theorem cryptoInv_start (c : Globals) : CryptoInv 0 (.start c) :=
  ⟨rfl, List.nodup_nil, nofun⟩

/-- The messages with a number are the same, in some order, or fewer. -/
theorem CryptoInv.of_subperm {count : ℕ} {s s' : CryptoState}
    (h : CryptoInv count s)
    (hnext : s'.globals.nextCtrlEncSeq = s.globals.nextCtrlEncSeq)
    (hjobs : (s'.jobs ++ s'.encrypted).Subperm (s.jobs ++ s.encrypted)) :
    CryptoInv count s' := by
  refine ⟨hnext.trans h.next, ?_, fun job hjob => h.lt job (hjobs.subset hjob)⟩
  obtain ⟨l, hperm, hsub⟩ := hjobs
  exact (hperm.map _).nodup_iff.mp ((hsub.map _).nodup h.nodup)

theorem beginMsg_eq_some {c c' : Globals} {taken : Bool} {msgType : UInt16}
    {payload : List UInt8} {job : Job}
    (h : beginMsg c taken msgType payload = some (job, c')) :
    job = ⟨c.nextCtrlEncSeq, msgType, payload⟩ ∧
      c' = { c with nextCtrlEncSeq := c.nextCtrlEncSeq + 1 } := by
  unfold beginMsg allocCtrlEncSeq at h
  split_ifs at h
  obtain ⟨rfl, rfl⟩ := Prod.mk.inj (Option.some.inj h)
  exact ⟨rfl, rfl⟩

/-- The step lemma: while the counter has not wrapped, every number is taken
once. -/
theorem CryptoInv.afterStep {count : ℕ} {s s' : CryptoState} {e : CryptoEvent}
    (h : CryptoInv count s) (he : e ≠ .restart)
    (hcount : count + (if e.takes then 1 else 0) ≤ 2 ^ 32)
    (hstep : cryptoStep s e = some s') :
    CryptoInv (count + if e.takes then 1 else 0) s' := by
  cases e with
  | begin msgType payload =>
      simp only [cryptoStep] at hstep
      cases hbegin : beginMsg s.globals true msgType payload with
      | none => rw [hbegin] at hstep; cases hstep
      | some taken =>
          obtain ⟨job, c⟩ := taken
          rw [hbegin] at hstep
          obtain rfl := Option.some.inj hstep
          obtain ⟨rfl, rfl⟩ := beginMsg_eq_some hbegin
          simp only [CryptoEvent.takes, if_true] at hcount ⊢
          have hseq : s.globals.nextCtrlEncSeq.toNat = count := by
            rw [h.next, UInt32.toNat_ofNat']
            exact Nat.mod_eq_of_lt (by omega)
          have hperm : ∀ job : Job, (s.jobs ++ [job] ++ s.encrypted).Perm
              (job :: (s.jobs ++ s.encrypted)) := by
            intro job
            rw [List.append_assoc]
            exact List.perm_middle
          refine ⟨?_, ?_, ?_⟩
          · show s.globals.nextCtrlEncSeq + 1 = _
            rw [h.next, UInt32.ofNat_add]
            rfl
          · rw [((hperm _).map _).nodup_iff, List.map_cons, List.nodup_cons]
            refine And.intro (fun hmem => ?_) h.nodup
            obtain ⟨job, hjob, heq⟩ := List.mem_map.mp hmem
            have hlt : job.seq.toNat < count := h.lt job hjob
            exact absurd (heq.trans hseq) hlt.ne
          · intro job hjob
            rcases List.mem_cons.mp ((hperm _).mem_iff.mp hjob) with rfl | hjob
            · show s.globals.nextCtrlEncSeq.toNat < count + 1
              omega
            · have := h.lt job hjob
              omega
  | encrypt job =>
      simp only [cryptoStep] at hstep
      split_ifs at hstep with hjob
      obtain rfl := Option.some.inj hstep
      refine h.of_subperm rfl ?_
      have herase := List.perm_cons_erase hjob
      refine (List.Perm.trans ?_ (herase.append_right s.encrypted).symm).subperm
      rw [← List.append_assoc]
      exact List.perm_append_singleton job _
  | abandon job =>
      simp only [cryptoStep] at hstep
      split_ifs at hstep
      obtain rfl := Option.some.inj hstep
      exact h.of_subperm rfl
        ((List.erase_sublist.append_right s.encrypted).subperm)
  | stop =>
      obtain rfl := Option.some.inj hstep
      exact h.of_subperm rfl (List.Subperm.refl _)
  | restart => exact absurd rfl he

/-- How many numbers a run takes. -/
def numbersTakenBy (es : List CryptoEvent) : ℕ := es.countP CryptoEvent.takes

theorem cryptoInv_run {es : List CryptoEvent} {s s' : CryptoState} {count : ℕ}
    (h : CryptoInv count s) (hes : ∀ e ∈ es, e ≠ .restart)
    (hcount : count + numbersTakenBy es ≤ 2 ^ 32)
    (hrun : cryptoRun s es = some s') :
    CryptoInv (count + numbersTakenBy es) s' := by
  induction es generalizing s count with
  | nil =>
      obtain rfl : s = s' := by simpa [cryptoRun] using hrun
      exact h
  | cons e es ih =>
      obtain ⟨s₁, hstep, hrun⟩ := Option.bind_eq_some_iff.mp hrun
      have hcons : numbersTakenBy (e :: es) =
          (if e.takes then 1 else 0) + numbersTakenBy es := by
        rw [numbersTakenBy, List.countP_cons, numbersTakenBy]
        omega
      rw [hcons, ← Nat.add_assoc] at hcount ⊢
      exact ih (h.afterStep (hes e (by simp)) (by omega) hstep)
        (fun d hd => hes d (by simp [hd])) hcount hrun

/-- Within one start, no vector is used twice, whatever the senders do between
each other's steps, as long as the counter does not wrap. -/
theorem vectors_distinct_within_start {c : Globals} {es : List CryptoEvent}
    {s : CryptoState} (hrun : cryptoRun (.start c) es = some s)
    (hstart : ∀ e ∈ es, e ≠ .restart) (hcount : numbersTakenBy es ≤ 2 ^ 32) :
    (s.encrypted.map Job.iv).Nodup := by
  have hinv := cryptoInv_run (cryptoInv_start c) hstart (by omega) hrun
  have hnodup : (s.encrypted.map (·.seq.toNat)).Nodup := by
    have := hinv.nodup
    rw [List.map_append] at this
    exact this.of_append_right
  rw [List.Nodup, List.pairwise_map] at hnodup ⊢
  exact hnodup.imp fun hne heq => hne (congrArg _ (controlIv_inj heq))

/-! ## Several starts, and the wrap of the counter -/

theorem cryptoRun_append (s : CryptoState) (es es' : List CryptoEvent) :
    cryptoRun s (es ++ es') =
      (cryptoRun s es).bind fun s' => cryptoRun s' es' := by
  induction es generalizing s with
  | nil => rfl
  | cons e es ih =>
      simp only [List.cons_append, cryptoRun, Option.bind_assoc]
      exact congrArg _ (funext fun s' => ih s')

/-- A message of a call site that is encrypted as soon as it has its number. -/
def sendEvents (seq : UInt32) (site : Site) : List CryptoEvent :=
  [.begin site.msgType site.payload,
    .encrypt ⟨seq, site.msgType, site.payload⟩]

/-- The first three messages of a session, the last of which is `site`. -/
def sessionEvents (site : Site) : List CryptoEvent :=
  sendEvents 0 .startA ++ sendEvents 1 .startB ++ sendEvents 2 site

/-- The first three messages of a session have three vectors. -/
theorem vectors_distinct_within_start_ping :
    ∃ s, cryptoRun (.start Globals.fresh) (sessionEvents .ping) = some s ∧
      s.encrypted.length = 3 ∧ (s.encrypted.map Job.iv).Nodup := by
  have hlog : (cryptoRun (.start Globals.fresh) (sessionEvents .ping)).map
      (fun s => s.encrypted.length) = some 3 := by decide
  obtain ⟨s, hrun, hlength⟩ := Option.map_eq_some_iff.mp hlog
  exact ⟨s, hrun, hlength,
    vectors_distinct_within_start hrun (by decide) (by decide)⟩

/-- `n` pings, one after the other. -/
def pingEvents (n : ℕ) : List CryptoEvent :=
  (List.range n).flatMap fun k => sendEvents (UInt32.ofNat k) .ping

/-- A message is sent while no other is under way. -/
theorem cryptoRun_sendEvents {s : CryptoState} (site : Site)
    (hready : s.globals.cryptoReady = true) (hjobs : s.jobs = [])
    (hpayload : site.payload.length ≤ payloadMax) :
    cryptoRun s (sendEvents s.globals.nextCtrlEncSeq site) =
      some ⟨{ s.globals with nextCtrlEncSeq := s.globals.nextCtrlEncSeq + 1 },
        [], s.encrypted ++
          [⟨s.globals.nextCtrlEncSeq, site.msgType, site.payload⟩]⟩ := by
  simp [cryptoRun, sendEvents, cryptoStep, beginMsg, allocCtrlEncSeq, hready,
    hjobs, Nat.not_lt.mpr hpayload]

/-- After `n` pings the counter is at `n`, as a 32-bit number. -/
theorem cryptoRun_pingEvents (c : Globals) (n : ℕ) :
    ∃ s, cryptoRun (.start c) (pingEvents n) = some s ∧
      s.globals.cryptoReady = true ∧ s.jobs = [] ∧
      s.globals.nextCtrlEncSeq = UInt32.ofNat n ∧
      ∀ k < n, ⟨UInt32.ofNat k, Site.ping.msgType, Site.ping.payload⟩ ∈
        s.encrypted := by
  induction n with
  | zero => exact ⟨.start c, rfl, rfl, rfl, rfl, nofun⟩
  | succ n ih =>
      obtain ⟨s, hrun, hready, hjobs, hnext, hmem⟩ := ih
      have hsend := cryptoRun_sendEvents .ping hready hjobs (by decide)
      refine ⟨⟨{ s.globals with
          nextCtrlEncSeq := s.globals.nextCtrlEncSeq + 1 }, [], s.encrypted ++
            [⟨s.globals.nextCtrlEncSeq, Site.ping.msgType,
              Site.ping.payload⟩]⟩, ?_, hready, rfl, ?_, ?_⟩
      · rw [pingEvents, List.range_succ, List.flatMap_append, cryptoRun_append,
          ← pingEvents, hrun, Option.bind_some, List.flatMap_singleton,
          ← hnext]
        exact hsend
      · show s.globals.nextCtrlEncSeq + 1 = _
        rw [hnext, UInt32.ofNat_add]
        rfl
      · intro k hk
        rcases Nat.lt_succ_iff_lt_or_eq.mp hk with hlt | rfl
        · exact List.mem_append_left _ (hmem k hlt)
        · rw [← hnext]
          exact List.mem_append_right _ (List.mem_singleton_self _)

/-- A ping and an IDR request under the same number contradict uniqueness. -/
theorem not_vectorsUnique {s : CryptoState} {n : UInt32}
    (hping : ⟨n, Site.ping.msgType, Site.ping.payload⟩ ∈ s.encrypted)
    (hidr : ⟨n, Site.idrRequest.msgType, Site.idrRequest.payload⟩ ∈
      s.encrypted) : ¬ VectorsUnique s := by
  intro h
  have heq : controlPlaintext Site.ping.msgType Site.ping.payload =
      controlPlaintext Site.idrRequest.msgType Site.idrRequest.payload :=
    h _ hping _ hidr rfl
  exact absurd heq (by decide)

/-- Two starts under one key encrypt a ping and an IDR request under the same
vector; and so does a single start, once the counter has wrapped. -/
theorem vectors_repeat :
    (¬ ∀ (es : List CryptoEvent) (s : CryptoState),
      cryptoRun (.start Globals.fresh) es = some s → VectorsUnique s) ∧
    ¬ ∀ (es : List CryptoEvent) (s : CryptoState), (∀ e ∈ es, e ≠ .restart) →
      cryptoRun (.start Globals.fresh) es = some s → VectorsUnique s := by
  refine ⟨fun hall => ?_, fun hall => ?_⟩
  · have hlog : (cryptoRun (.start Globals.fresh) (sessionEvents .ping ++
        [.stop, .restart] ++ sessionEvents .idrRequest)).map
          (fun s => (decide (⟨2, Site.ping.msgType, Site.ping.payload⟩ ∈
              s.encrypted),
            decide (⟨2, Site.idrRequest.msgType, Site.idrRequest.payload⟩ ∈
              s.encrypted))) = some (true, true) := by decide
    obtain ⟨s, hrun, hs⟩ := Option.map_eq_some_iff.mp hlog
    rw [Prod.mk.injEq, decide_eq_true_eq, decide_eq_true_eq] at hs
    exact not_vectorsUnique hs.1 hs.2 (hall _ s hrun)
  · obtain ⟨s, hrun, hready, hjobs, hnext, hmem⟩ :=
      cryptoRun_pingEvents Globals.fresh 4294967296
    have hsend := cryptoRun_sendEvents .idrRequest hready hjobs (by decide)
    have hpair : cryptoRun (.start Globals.fresh)
        (pingEvents 4294967296 ++
          sendEvents s.globals.nextCtrlEncSeq .idrRequest) =
        cryptoRun s (sendEvents s.globals.nextCtrlEncSeq .idrRequest) := by
      rw [cryptoRun_append, hrun, Option.bind_some]
    refine not_vectorsUnique (n := s.globals.nextCtrlEncSeq) ?_ ?_
      (hall _ _ ?_ (hpair.trans hsend))
    · refine List.mem_append_left _ ?_
      rw [hnext]
      exact hmem 0 (by decide)
    · exact List.mem_append_right _ (List.mem_singleton_self _)
    · intro e he heq
      subst heq
      rcases List.mem_append.mp he with he | he
      · obtain ⟨k, -, hk⟩ := List.mem_flatMap.mp he
        simp [sendEvents] at hk
      · simp [sendEvents] at he

end MoonlightPsp.Control
