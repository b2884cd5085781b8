import MoonlightPsp.Pairing.Decoding

/-!
# Pairing inside its buffers

The thread checks half the length of the challenge, and the decoder rounds the half up:
the thread leaves its buffers for one length, 129, and for no other.
-/

namespace MoonlightPsp.Pairing

open Rtsp CheckedMemory

variable {env : PairEnv} {b b' : Buffers} {resp : Response} {text : Text} {o : Outcome}

/-- Whether an answer says that the client is paired. -/
def Response.SaysPaired (resp : Response) : Prop :=
  tagValue "paired".toList 8 resp.text = some "1".toList

/-- The challenge in an answer. -/
def Response.challenge (resp : Response) : Option Text :=
  tagValue "challengeresponse".toList 256 resp.text

/-- The bytes that a challenge decrypts to. -/
def decrypted (key : List UInt8) (text : Text) : List UInt8 :=
  decryptBlocks (aesKeyExpansion key) (text.length / 2 / 16) (hexBytes text)

/-- The thread stays inside its buffers, and the bytes of `cr_dec` that it uses are bytes
of the decrypted challenge of the second step. -/
def InsideBuffers (env : PairEnv) : Prop :=
  ∃ o, pairingThreadFunc env = some o ∧ ∀ bytes, o.2.serverChallenge = some bytes →
    ∃ resp text, env.http 2 = some resp ∧ resp.challenge = some text ∧
      bytes = ((decrypted env.aesKey text).drop 32).take 16 ∧ bytes.length = 16

/-- The thread comes to the third step with this challenge. -/
structure Reaches (env : PairEnv) (text : Text) : Prop where
  identity : env.identity = true
  salt : env.random 0 = true
  first : env.cancel 1 = false
  cert : ∃ resp, (env.http 0).or (env.http 1) = some resp ∧ resp.SaysPaired
  second : env.cancel 2 = false
  challenge : env.random 1 = true
  answer : ∃ resp, env.http 2 = some resp ∧ resp.challenge = some text ∧ resp.SaysPaired

/-- The thread decodes this challenge. -/
structure Decodes (env : PairEnv) (text : Text) : Prop where
  reaches : Reaches env text
  third : env.cancel 3 = false
  secret : env.random 2 = true

/-! ## Answers -/

theorem paired_value (h : tagValue "paired".toList 8 resp.text = some text) :
    text.length < 8 ∧ nul ∉ text := by
  obtain ⟨hlen, hmem⟩ := tagValue_spec h
  exact ⟨hlen, fun hnul => resp.terminated (hmem nul hnul)⟩

/-- The same buffers, but for `paired_val`. -/
structure SameButPaired (b b' : Buffers) : Prop where
  size : b'.pairedVal.length = 8
  others : ∃ cells, b' = { b with pairedVal := cells }

theorem paired_eq (resp : Response) (h : b.pairedVal.length = 8) :
    ∃ b' said, paired resp b = some (said, b') ∧ SameButPaired b b' ∧
      (said = true ↔ resp.SaysPaired) := by
  rw [paired, xmlGetValueSafe_eq h, Response.SaysPaired]
  cases hvalue : tagValue "paired".toList 8 resp.text with
  | none => exact ⟨b, false, rfl, ⟨h, b.pairedVal, rfl⟩, nofun, nofun⟩
  | some text =>
      obtain ⟨hlen, hnul⟩ := paired_value hvalue
      have hsize := length_holding (h ▸ hlen : text.length < b.pairedVal.length)
      have hret : ¬((text.length : ℤ) < 0) := by omega
      refine ⟨{ b with pairedVal := holding b.pairedVal text }, text == "1".toList, ?_,
        ⟨hsize.trans h, _, rfl⟩, ?_⟩
      · simp only [Option.bind_eq_bind, Option.bind_some, if_neg hret,
          readString_holding hnul]
        rfl
      · rw [beq_iff_eq, Option.some.injEq]

/-! ## The steps behind the challenge -/

/-- A step goes through and uses no further bytes of `cr_dec`. -/
def GoesThrough (b : Buffers) (r : Option Outcome) : Prop :=
  ∃ o, r = some o ∧ o.2.serverChallenge = b.serverChallenge

theorem goesThrough_now (result : Option ℤ) (b : Buffers) :
    GoesThrough b (some (result, b)) := ⟨(result, b), rfl, rfl⟩

theorem SameButPaired.goesThrough {r : Option Outcome} (h : SameButPaired b b')
    (hr : GoesThrough b' r) : GoesThrough b r := by
  obtain ⟨o, ho, hsame⟩ := hr
  obtain ⟨cells, rfl⟩ := h.others
  exact ⟨o, ho, hsame⟩

/-- A step that goes on when an answer says that the client is paired. -/
theorem goesThrough_paired {next : Buffers → Option Outcome} {result : ℤ}
    (h : b.pairedVal.length = 8)
    (hnext : ∀ b' : Buffers, b'.pairedVal.length = 8 → GoesThrough b' (next b')) :
    GoesThrough b ((paired resp b).bind fun said =>
      if said.1 then next said.2 else some (some result, said.2)) := by
  obtain ⟨b', said, hpaired, hsame, _⟩ := paired_eq resp h
  rw [hpaired, Option.bind_some]
  apply hsame.goesThrough
  cases said with
  | true => exact hnext b' hsame.size
  | false => exact goesThrough_now _ b'

theorem pairChallenge_goesThrough (env : PairEnv) (h : b.pairedVal.length = 8) :
    GoesThrough b (pairChallenge env b) := by
  rw [pairChallenge]
  split
  · exact goesThrough_now _ b
  · split
    · exact goesThrough_now _ b
    · rename_i resp _
      rw [xmlGetValueSafe_eq h]
      cases tagValue "paired".toList 8 resp.text with
      | none => exact goesThrough_now _ b
      | some text => exact ⟨_, rfl, rfl⟩

theorem clientPairingSecret_goesThrough (env : PairEnv) (h : b.pairedVal.length = 8) :
    GoesThrough b (clientPairingSecret env b) := by
  rw [clientPairingSecret]
  split
  · exact goesThrough_now _ b
  · split
    · exact goesThrough_now _ b
    · split
      · exact goesThrough_now _ b
      · exact goesThrough_paired h fun b' hb' => pairChallenge_goesThrough env hb'

theorem serverChallengeResp_goesThrough (env : PairEnv) (h : b.pairedVal.length = 8) :
    GoesThrough b (serverChallengeResp env b) := by
  rw [serverChallengeResp]
  split
  · exact goesThrough_now _ b
  · exact goesThrough_paired h fun b' hb' => clientPairingSecret_goesThrough env hb'

/-- The rest of the thread uses the bytes that it was given. -/
theorem serverChallengeResp_uses (env : PairEnv) {used : List UInt8}
    (h : b.pairedVal.length = 8) (hused : b.serverChallenge = some used)
    (hlen : used.length = 16) :
    ∃ o, serverChallengeResp env b = some o ∧ ∀ bytes, o.2.serverChallenge = some bytes →
      bytes = used ∧ bytes.length = 16 := by
  obtain ⟨o, ho, hsame⟩ := serverChallengeResp_goesThrough env h
  refine ⟨o, ho, ?_⟩
  intro bytes hbytes
  rw [hsame, hused, Option.some.injEq] at hbytes
  exact ⟨hbytes.symm, hbytes ▸ hlen⟩

/-! ## The third step -/

/-- The buffers in front of the third step. -/
structure Ready (b : Buffers) (text : Text) : Prop where
  terminated : nul ∉ text
  crHex : b.crHex = holding (List.replicate 256 none) text
  crEnc : b.crEnc = List.replicate 64 none
  crDec : b.crDec = List.replicate 64 none
  pairedVal : b.pairedVal.length = 8
  unused : b.serverChallenge = none

theorem overlay_front (cells : List (Option UInt8)) (bytes : List UInt8) :
    overlay cells 0 (bytes.map some) = bytes.map some ++ cells.drop bytes.length := by
  rw [overlay, List.take_zero, List.nil_append, Nat.zero_add, List.length_map]

theorem decryptChallenge_start (hgo : env.cancel 3 = false ∧ env.random 2 = true)
    (h : Ready b text) :
    decryptChallenge env b =
      if text.length / 2 < 48 ∨ 64 < text.length / 2 ∨ text.length / 2 % 16 ≠ 0 then
        some (some (-5), b)
      else
        (hexToBytesLite b.crHex b.crEnc text.length).bind fun crEnc =>
          (aes128EcbDecrypt crEnc (text.length / 2) env.aesKey b.crDec).bind fun crDec =>
            if !env.certSig then
              some (some (-5), { b with
                crEnc := crEnc
                crDec := crDec })
            else
              (readBytes crDec 32 16).bind fun used =>
                serverChallengeResp env { b with
                  crEnc := crEnc
                  crDec := crDec
                  serverChallenge := some used } := by
  rw [decryptChallenge, if_neg (by simp [hgo.1]), if_neg (by simp [hgo.2]), h.crHex,
    readString_holding h.terminated]
  rfl

/-- The decoder writes behind `cr_enc` when 129 digits are to be decoded. -/
theorem decryptChallenge_none (hgo : env.cancel 3 = false ∧ env.random 2 = true)
    (h : Ready b text) (hlen : text.length = 129) : decryptChallenge env b = none := by
  have hbytes : ¬(hexBytes text).length ≤ b.crEnc.length := by
    rw [length_hexBytes, hlen, h.crEnc, List.length_replicate]
    omega
  rw [decryptChallenge_start hgo h, if_neg (by rw [hlen]; omega), h.crHex, holding_eq,
    hexToBytesLite_eq, if_neg hbytes]
  rfl

/-- Every other challenge is decrypted inside the buffers, or refused. -/
theorem decryptChallenge_some (hgo : env.cancel 3 = false ∧ env.random 2 = true)
    (h : Ready b text) (hlen : text.length ≠ 129) :
    ∃ o, decryptChallenge env b = some o ∧ ∀ bytes, o.2.serverChallenge = some bytes →
      bytes = ((decrypted env.aesKey text).drop 32).take 16 ∧ bytes.length = 16 := by
  rw [decryptChallenge_start hgo h]
  split
  · refine ⟨_, rfl, ?_⟩
    intro bytes hbytes
    exact absurd (h.unused.symm.trans hbytes) nofun
  · rename_i haccepted
    have hcount := length_hexBytes text
    have hroom : (hexBytes text).length ≤ b.crEnc.length := by
      rw [h.crEnc, List.length_replicate]
      omega
    have hblocks : text.length / 2 = 16 * (text.length / 2 / 16) := by omega
    have hcipher : 16 * (text.length / 2 / 16) ≤ (hexBytes text).length := by omega
    have hplain : 16 * (text.length / 2 / 16) ≤ b.crDec.length := by
      rw [h.crDec, List.length_replicate]
      omega
    have hdecrypted : (decrypted env.aesKey text).length = text.length / 2 := by
      rw [decrypted, length_decryptBlocks, ← hblocks]
    rw [h.crHex, holding_eq, hexToBytesLite_eq, if_pos hroom, Option.bind_some,
      overlay_front, hblocks, aes128EcbDecrypt_eq _ hcipher hplain, Option.bind_some,
      overlay_front, ← decrypted, readBytes_written _ _ (by omega), Option.bind_some]
    split
    · refine ⟨_, rfl, ?_⟩
      intro bytes hbytes
      exact absurd (h.unused.symm.trans hbytes) nofun
    · have hsixteen : (((decrypted env.aesKey text).drop 32).take 16).length = 16 := by
        rw [List.length_take, List.length_drop, hdecrypted]
        omega
      exact serverChallengeResp_uses env h.pairedVal rfl hsixteen

/-! ## The way to the third step -/

/-- The run ends before it comes to the third step. -/
def EndsEarly (env : PairEnv) (r : Option Outcome) : Prop :=
  (∀ text, ¬Reaches env text) ∧ ∃ o, r = some o ∧ o.2.serverChallenge = none

/-- The run goes on with the third step. -/
def GoesOn (env : PairEnv) (r : Option Outcome) : Prop :=
  ∃ text b, Reaches env text ∧ Ready b text ∧ r = decryptChallenge env b

/-- The buffers at the start, but for `paired_val`. -/
structure Fresh (b : Buffers) : Prop where
  pairedVal : b.pairedVal.length = 8
  others : ∃ cells, b = { Buffers.start with pairedVal := cells }

theorem fresh_start : Fresh Buffers.start := ⟨rfl, _, rfl⟩

theorem Fresh.unused (h : Fresh b) : b.serverChallenge = none := by
  obtain ⟨cells, rfl⟩ := h.others
  rfl

/-- The challenge of the second step, taken from its answer. -/
theorem clientChallenge_cases (h : Fresh b)
    (hreaches : ∀ text, Reaches env text ↔ env.cancel 2 = false ∧ env.random 1 = true ∧
      ∃ resp, env.http 2 = some resp ∧ resp.challenge = some text ∧ resp.SaysPaired) :
    EndsEarly env (clientChallenge env b) ∨ GoesOn env (clientChallenge env b) := by
  have hearly (result : Option ℤ) {b' : Buffers} (hb' : b'.serverChallenge = none)
      (hno : ∀ text, ¬Reaches env text) : EndsEarly env (some (result, b')) :=
    ⟨hno, (result, b'), rfl, hb'⟩
  rw [clientChallenge]
  split
  · rename_i hcancel
    refine .inl (hearly none h.unused fun text hr => ?_)
    exact absurd hcancel (by rw [((hreaches text).mp hr).1]; exact Bool.false_ne_true)
  · rename_i hcancel
    split
    · rename_i hrandom
      refine .inl (hearly _ h.unused fun text hr => ?_)
      rw [((hreaches text).mp hr).2.1] at hrandom
      exact nomatch hrandom
    · rename_i hrandom
      split
      · rename_i hnone
        refine .inl (hearly _ h.unused fun text hr => ?_)
        obtain ⟨_, _, resp, hresp, _⟩ := (hreaches text).mp hr
        exact nomatch hnone.symm.trans hresp
      · rename_i resp hresp
        obtain ⟨cells, rfl⟩ := h.others
        have hsize : (Buffers.start.crHex).length = 256 := List.length_replicate
        cases hchallenge : resp.challenge with
        | none =>
            have hvalue : xmlGetValueSafe resp.text "challengeresponse".toList
                Buffers.start.crHex 256 = some (-1, Buffers.start.crHex) := by
              rw [xmlGetValueSafe_eq hsize, ← Response.challenge, hchallenge]
            rw [hvalue]
            refine .inl (hearly _ rfl fun text hr => ?_)
            obtain ⟨_, _, other, hother, htext, _⟩ := (hreaches text).mp hr
            obtain rfl := Option.some.inj (hresp.symm.trans hother)
            exact nomatch hchallenge.symm.trans htext
        | some text =>
            obtain ⟨hlen, hmem⟩ := tagValue_spec hchallenge
            have hvalue : xmlGetValueSafe resp.text "challengeresponse".toList
                Buffers.start.crHex 256 =
                  some ((text.length : ℤ), holding Buffers.start.crHex text) := by
              rw [xmlGetValueSafe_eq hsize, ← Response.challenge, hchallenge]
            have hret : ¬((text.length : ℤ) < 0) := by omega
            obtain ⟨b', said, hpaired, hsame, hsaid⟩ := paired_eq
              (b := { Buffers.start with
                pairedVal := cells
                crHex := holding Buffers.start.crHex text }) resp h.pairedVal
            rw [hvalue]
            simp only [Option.bind_eq_bind, Option.bind_some, if_neg hret]
            rw [hpaired, Option.bind_some]
            have hready : Ready b' text := by
              obtain ⟨others, rfl⟩ := hsame.others
              exact ⟨fun hnul => resp.terminated (hmem nul hnul), rfl, rfl, rfl, hsame.size,
                rfl⟩
            cases said with
            | true =>
                refine .inr ⟨text, b', (hreaches text).mpr ?_, hready, rfl⟩
                exact ⟨Bool.eq_false_iff.mpr hcancel, by simpa using hrandom, resp,
                  hresp, hchallenge, hsaid.mp rfl⟩
            | false =>
                refine .inl (hearly _ hready.unused fun other hr => ?_)
                obtain ⟨_, _, again, hagain, _, hyes⟩ := (hreaches other).mp hr
                obtain rfl := Option.some.inj (hresp.symm.trans hagain)
                exact nomatch hsaid.mpr hyes

/-- Every run ends early or goes on with the third step. -/
theorem pairingThreadFunc_cases (env : PairEnv) :
    EndsEarly env (pairingThreadFunc env) ∨ GoesOn env (pairingThreadFunc env) := by
  have hearly (result : Option ℤ) {b' : Buffers} (hb' : b'.serverChallenge = none)
      (hno : ∀ text, ¬Reaches env text) : EndsEarly env (some (result, b')) :=
    ⟨hno, (result, b'), rfl, hb'⟩
  rw [pairingThreadFunc]
  simp only
  split
  · rename_i hidentity
    refine .inl (hearly _ rfl fun text hr => ?_)
    rw [hr.identity] at hidentity
    exact nomatch hidentity
  · rename_i hidentity
    split
    · rename_i hsalt
      refine .inl (hearly _ rfl fun text hr => ?_)
      rw [hr.salt] at hsalt
      exact nomatch hsalt
    · rename_i hsalt
      split
      · rename_i hcancel
        refine .inl (hearly none rfl fun text hr => ?_)
        exact nomatch hr.first.symm.trans hcancel
      · rename_i hcancel
        split
        · rename_i hnone
          refine .inl (hearly _ rfl fun text hr => ?_)
          obtain ⟨resp, hresp, _⟩ := hr.cert
          exact nomatch hnone.symm.trans hresp
        · rename_i resp hresp
          obtain ⟨b', said, hpaired, hsame, hsaid⟩ := paired_eq resp fresh_start.pairedVal
          rw [hpaired]
          have hfresh : Fresh b' := ⟨hsame.size, hsame.others⟩
          cases said with
          | true =>
              apply clientChallenge_cases hfresh
              intro text
              constructor
              · intro hr
                exact ⟨hr.second, hr.challenge, hr.answer⟩
              · rintro ⟨hsecond, hchallenge, hanswer⟩
                exact ⟨by simpa using hidentity, by simpa using hsalt,
                  Bool.eq_false_iff.mpr hcancel, ⟨resp, hresp, hsaid.mp rfl⟩, hsecond,
                  hchallenge, hanswer⟩
          | false =>
              refine .inl (hearly _ hfresh.unused fun text hr => ?_)
              obtain ⟨other, hother, hyes⟩ := hr.cert
              obtain rfl := Option.some.inj (hresp.symm.trans hother)
              exact nomatch hsaid.mpr hyes

theorem reaches_unique {text other : Text} (h : Reaches env text) (h' : Reaches env other) :
    text = other := by
  obtain ⟨resp, hresp, htext, _⟩ := h.answer
  obtain ⟨resp', hresp', htext', _⟩ := h'.answer
  obtain rfl := Option.some.inj (hresp.symm.trans hresp')
  exact Option.some.inj (htext.symm.trans htext')

/-- A challenge of 129 digits that is decoded leaves the buffers. -/
theorem pairingThreadFunc_none (h : Decodes env text) (hlen : text.length = 129) :
    pairingThreadFunc env = none := by
  obtain ⟨hno, _⟩ | ⟨other, b, hreaches, hready, hrun⟩ := pairingThreadFunc_cases env
  · exact absurd h.reaches (hno text)
  · obtain rfl := reaches_unique hreaches h.reaches
    rw [hrun]
    exact decryptChallenge_none ⟨h.third, h.secret⟩ hready hlen

/-- The thread stays inside its buffers and uses only decrypted bytes, exactly where it
does not decode a challenge of 129 digits. -/
theorem pairingThreadFunc_inside (env : PairEnv) :
    InsideBuffers env ↔ ∀ text, Decodes env text → text.length ≠ 129 := by
  constructor
  · rintro ⟨o, ho, _⟩ text hdecodes hlen
    exact nomatch (pairingThreadFunc_none hdecodes hlen).symm.trans ho
  · intro hlen
    rw [InsideBuffers]
    obtain ⟨_, o, ho, hunused⟩ | ⟨text, b, hreaches, hready, hrun⟩ :=
      pairingThreadFunc_cases env
    · refine ⟨o, ho, ?_⟩
      intro bytes hbytes
      exact nomatch hunused.symm.trans hbytes
    · rw [hrun]
      by_cases hgo : env.cancel 3 = false ∧ env.random 2 = true
      · obtain ⟨o, ho, hused⟩ := decryptChallenge_some hgo hready
          (hlen text ⟨hreaches, hgo.1, hgo.2⟩)
        refine ⟨o, ho, ?_⟩
        intro bytes hbytes
        obtain ⟨resp, hresp, htext, _⟩ := hreaches.answer
        exact ⟨resp, text, hresp, htext, hused bytes hbytes⟩
      · have hstop : ∃ result, decryptChallenge env b = some (result, b) := by
          rw [decryptChallenge]
          split
          · exact ⟨_, rfl⟩
          · rename_i hthird
            rw [if_pos]
            · exact ⟨_, rfl⟩
            · by_contra hsecret
              refine hgo ⟨Bool.eq_false_iff.mpr hthird, ?_⟩
              simpa using hsecret
        obtain ⟨result, hresult⟩ := hstop
        refine ⟨_, hresult, ?_⟩
        intro bytes hbytes
        exact nomatch hready.unused.symm.trans hbytes

/-- An answer with a challenge of `n` digits. -/
def challengeText (n : ℕ) : Text :=
  "<root><paired>1</paired><challengeresponse>".toList ++ List.replicate n '0' ++
    "</challengeresponse></root>".toList

/-- A server that sends 129 digits. -/
def oddChallenge : PairEnv where
  identity := true
  aesKey := List.replicate 16 0
  random := fun _ => true
  cancel := fun _ => false
  http := fun _ => some ⟨challengeText 129, by decide +kernel, by decide +kernel⟩
  certSig := true
  rsaSign := true

/-- The thread leaves `cr_enc` for a challenge of 129 digits. -/
theorem pairingThreadFunc_oddChallenge : ¬InsideBuffers oddChallenge := by
  have hpaired : tagValue "paired".toList 8 (challengeText 129) = some "1".toList := by
    decide +kernel
  have hchallenge : tagValue "challengeresponse".toList 256 (challengeText 129) =
      some (List.replicate 129 '0') := by
    decide +kernel
  have hreaches : Reaches oddChallenge (List.replicate 129 '0') :=
    ⟨rfl, rfl, rfl, ⟨_, rfl, hpaired⟩, rfl, rfl, ⟨_, rfl, hchallenge, hpaired⟩⟩
  rintro ⟨o, ho, _⟩
  have hnone := pairingThreadFunc_none ⟨hreaches, rfl, rfl⟩ List.length_replicate
  exact nomatch hnone.symm.trans ho

end MoonlightPsp.Pairing
