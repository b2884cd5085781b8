import Mathlib.Data.List.Nodup
import MoonlightPsp.Hosts.Discovery
import MoonlightPsp.Lib.PastTime

/-!
# What the list of the hosts is worth

In every run of the page each address is in the list once, and exactly those are that were
added and not removed since; a host is online exactly where the last thing that concerned it
was an answer; and the selection is a host of the list within the window.
-/

namespace MoonlightPsp.Hosts

open MoonlightPsp.Config MoonlightPsp.Rtsp PastTime

/-! ## The history of an address -/

/-- The address joins the list. -/
def Adds (ip : Text) : HostEvent → Prop
  | .added a => a = ip
  | _ => False

/-- The address leaves it. -/
def Removes (ip : Text) : HostEvent → Prop
  | .removed a => a = ip
  | .cleared => True
  | _ => False

/-- The host of the address has shown that it is there. -/
def Answers (ip : Text) : HostEvent → Prop
  | .probed a answered => a = ip ∧ answered = true
  | .marked a => a = ip
  | _ => False

/-- It has not, or is no longer the one that did. -/
def Silences (ip : Text) : HostEvent → Prop
  | .added a => a = ip
  | .probed a answered => a = ip ∧ answered = false
  | .removed a => a = ip
  | .cleared => True
  | _ => False

/-- The address was added, and not removed since. -/
def Present (ip : Text) (log : List HostEvent) : Prop := Pending (Adds ip) (Removes ip) log

/-- The host answered, and nothing since then says otherwise. -/
def Answered (ip : Text) (log : List HostEvent) : Prop :=
  Pending (Answers ip) (Silences ip) log

/-- The status of a host says whether it answered. -/
def Truthful (log : List HostEvent) (host : HostPC) : Prop :=
  (host.status = 1 ∧ Answered host.ip.text log) ∨
    (host.status = 0 ∧ ¬ Answered host.ip.text log)

/-- The addresses in the list. -/
def Discovery.addresses (d : Discovery) : List Text := d.hosts.map fun host => host.ip.text

/-- What is true of the list. -/
structure Listed (d : Discovery) : Prop where
  few : d.hosts.length ≤ maxHosts
  distinct : d.addresses.Nodup
  named : [] ∉ d.addresses
  present : ∀ ip, ip ∈ d.addresses ↔ Present ip d.log
  truthful : ∀ host ∈ d.hosts, Truthful d.log host

/-- What is true of the selection: with hosts in the list, it is one of them, and one of the
five in the window, which has no room left below the last. -/
structure Selection (d : Discovery) : Prop where
  empty : d.hosts = [] → d.selectedIndex = 0 ∧ d.firstVisibleIndex = 0
  inList : d.hosts ≠ [] → d.selectedIndex < d.hostCount
  first : 0 ≤ d.firstVisibleIndex ∧ d.firstVisibleIndex ≤ d.selectedIndex
  visible : d.selectedIndex < d.firstVisibleIndex + maxVisibleHosts
  filled : d.firstVisibleIndex = 0 ∨ d.firstVisibleIndex + maxVisibleHosts ≤ d.hostCount

/-- What is true of the page. -/
structure SoundPage (d : Discovery) : Prop where
  listed : Listed d
  selection : Selection d

/-- What is true of the return of a frame: it is one of the three codes, or the index of the
host that the caller is then given. -/
def FrameLaw (r : Discovery × ℤ) : Prop :=
  r.2 = -1 ∨ r.2 = -2 ∨ r.2 = -4 ∨
    (0 ≤ r.2 ∧ r.2 = r.1.selectedIndex ∧ ∃ host ∈ r.1.hosts, r.1.getSelected = some host)

variable {d : Discovery} {ip : Text} {host : HostPC} {log : List HostEvent} {e : HostEvent}

/-! ## Events about one address -/

/-- An event about an address of the list, which leaves it there. -/
inductive Concerns (ip : Text) : HostEvent → Prop
  | added : Concerns ip (.added ip)
  | probed (answered : Bool) : Concerns ip (.probed ip answered)
  | marked : Concerns ip (.marked ip)

theorem Concerns.not_removes (h : Concerns ip e) (other : Text) : ¬ Removes other e := by
  cases h <;> exact id

theorem Concerns.adds (h : Concerns ip e) {other : Text} (hadds : Adds other e) :
    other = ip := by
  cases h with
  | added => exact hadds.symm
  | probed answered => exact hadds.elim
  | marked => exact hadds.elim

/-- It says nothing about another address. -/
theorem Concerns.answered (h : Concerns ip e) {other : Text} (hother : other ≠ ip) :
    Answered other (log ++ [e]) ↔ Answered other log := by
  refine pending_of_neutral ?_ ?_
  · intro hanswers
    cases h with
    | added => exact hanswers
    | probed answered => exact hother hanswers.1.symm
    | marked => exact hother hanswers.symm
  · intro hsilences
    cases h with
    | added => exact hother hsilences.symm
    | probed answered => exact hother hsilences.1.symm
    | marked => exact hsilences

theorem present_snoc :
    Present ip (log ++ [e]) ↔ Adds ip e ∨ ¬ Removes ip e ∧ Present ip log :=
  pending_snoc

theorem answered_probed (answered : Bool) :
    Answered ip (log ++ [.probed ip answered]) ↔ answered = true := by
  rw [Answered, pending_snoc]
  cases answered <;> simp [Answers, Silences]

theorem answered_marked : Answered ip (log ++ [.marked ip]) := pending_of_raises rfl

theorem not_answered_added : ¬ Answered ip (log ++ [.added ip]) :=
  not_pending_of_settles id rfl

/-! ## The list -/

theorem mem_addresses (h : host ∈ d.hosts) : host.ip.text ∈ d.addresses :=
  List.mem_map_of_mem h

/-- The hosts keep their addresses, and those of other addresses stay as they are. -/
theorem Listed.relisted (h : Listed d) {hosts : List HostPC} (he : Concerns ip e)
    (hsame : hosts.map (fun host => host.ip.text) = d.addresses) (hip : ip ∈ d.addresses)
    (hstatus : ∀ host ∈ hosts,
      host.ip.text ≠ ip ∧ host ∈ d.hosts ∨ Truthful (d.log ++ [e]) host) :
    Listed { d with hosts := hosts, log := d.log ++ [e] } where
  few := by
    have hlength := congrArg List.length hsame
    rw [List.length_map, Discovery.addresses, List.length_map] at hlength
    exact hlength.trans_le h.few
  distinct := by
    rw [Discovery.addresses, hsame]
    exact h.distinct
  named := by
    rw [Discovery.addresses, hsame]
    exact h.named
  present := by
    intro other
    rw [Discovery.addresses, hsame, h.present]
    refine Iff.trans ?_ present_snoc.symm
    constructor
    · exact fun hpending => .inr ⟨he.not_removes other, hpending⟩
    · rintro (hadds | ⟨-, hpending⟩)
      · rw [he.adds hadds]
        exact (h.present ip).mp hip
      · exact hpending
  truthful := by
    intro host hhost
    rcases hstatus host hhost with ⟨hother, hold⟩ | htruthful
    · rw [Truthful, he.answered hother]
      exact h.truthful host hold
    · exact htruthful

/-- One host is changed, but for its address. -/
theorem Listed.modify (h : Listed d) {index : ℕ} (hat : d.hosts[index]? = some host)
    (f : HostPC → HostPC) (he : Concerns host.ip.text e) (haddress : (f host).ip = host.ip)
    (htruthful : Truthful (d.log ++ [e]) (f host)) :
    Listed { d with hosts := d.hosts.modify index f, log := d.log ++ [e] } := by
  refine h.relisted he ?_ (mem_addresses (List.mem_of_getElem? hat)) ?_
  · rw [Discovery.addresses]
    apply List.ext_getElem?
    intro j
    rw [List.getElem?_map, List.getElem?_map, List.getElem?_modify]
    by_cases hj : index = j
    · simp [← hj, hat, haddress]
    · simp [hj]
  · intro x hx
    obtain ⟨j, hj⟩ := List.mem_iff_getElem?.mp hx
    rw [List.getElem?_modify] at hj
    by_cases hsame : index = j
    · subst hsame
      rw [hat] at hj
      obtain rfl : f host = x := by simpa using hj
      exact .inr htruthful
    · have hold : d.hosts[j]? = some x := by simpa [hsame] using hj
      refine .inl ⟨fun heq => hsame ?_, List.mem_of_getElem? hold⟩
      have hfirst : d.addresses[index]? = some host.ip.text := by
        simp [Discovery.addresses, hat]
      have hsecond : d.addresses[j]? = some host.ip.text := by
        simp [Discovery.addresses, hold, heq]
      exact (List.getElem?_inj (List.getElem?_eq_some_iff.mp hfirst).1 h.distinct).mp
        (hfirst.trans hsecond.symm)

/-- What the list is worth depends on the addresses and the statuses, and on the log. -/
theorem Listed.of_same (h : Listed d) {d' : Discovery}
    (hhosts : d'.hosts.map (fun host => (host.ip, host.status)) =
      d.hosts.map fun host => (host.ip, host.status))
    (hlog : d'.log = d.log) : Listed d' := by
  have haddresses : d'.addresses = d.addresses := by
    have hkeys := congrArg (List.map fun key : Field 16 × ℤ => key.1.text) hhosts
    rwa [List.map_map, List.map_map] at hkeys
  constructor
  · have hlength := congrArg List.length hhosts
    rw [List.length_map, List.length_map] at hlength
    exact hlength.trans_le h.few
  · rw [haddresses]
    exact h.distinct
  · rw [haddresses]
    exact h.named
  · intro ip
    rw [haddresses, hlog]
    exact h.present ip
  · intro host hhost
    have hmem := List.mem_map_of_mem (f := fun host : HostPC => (host.ip, host.status)) hhost
    rw [hhosts] at hmem
    obtain ⟨old, hold, hsame⟩ := List.mem_map.mp hmem
    obtain ⟨hip, hstatus⟩ := Prod.mk.inj hsame
    have htruthful := h.truthful old hold
    rwa [Truthful, hip, hstatus, ← hlog] at htruthful

/-- A host of a new address joins the list, offline. -/
theorem Listed.join (h : Listed d) (hroom : d.hosts.length < maxHosts)
    (hnew : host.ip.text ∉ d.addresses) (hnamed : host.ip.text ≠ [])
    (hoffline : host.status = 0) :
    Listed { d with hosts := d.hosts ++ [host], log := d.log ++ [.added host.ip.text] } := by
  have haddresses : Discovery.addresses
      { d with hosts := d.hosts ++ [host], log := d.log ++ [.added host.ip.text] } =
        d.addresses ++ [host.ip.text] := by
    simp [Discovery.addresses]
  constructor
  · rwa [List.length_append, List.length_singleton]
  · rw [haddresses]
    exact h.distinct.append (List.nodup_singleton _) (by simpa using hnew)
  · rw [haddresses, List.mem_append, List.mem_singleton]
    rintro (hold | hempty)
    · exact h.named hold
    · exact hnamed hempty.symm
  · intro ip
    rw [haddresses, List.mem_append, List.mem_singleton, h.present]
    refine Iff.trans ?_ present_snoc.symm
    constructor
    · rintro (hpending | rfl)
      · exact .inr ⟨id, hpending⟩
      · exact .inl rfl
    · rintro (hadds | ⟨-, hpending⟩)
      · exact .inr (Concerns.added.adds hadds)
      · exact .inl hpending
  · intro x hx
    rcases List.mem_append.mp hx with hold | hlast
    · have hother : x.ip.text ≠ host.ip.text := fun heq => hnew (heq ▸ mem_addresses hold)
      rw [Truthful, Concerns.added.answered hother]
      exact h.truthful x hold
    · rw [List.mem_singleton.mp hlast]
      exact .inr ⟨hoffline, not_answered_added⟩

/-- The host at an index leaves the list. -/
theorem Listed.remove (h : Listed d) {index : ℕ} (hat : d.hosts[index]? = some host) :
    Listed { d with
      hosts := d.hosts.eraseIdx index
      log := d.log ++ [.removed host.ip.text] } := by
  have haddress : d.addresses[index]? = some host.ip.text := by
    simp [Discovery.addresses, hat]
  obtain ⟨hlt, hvalue⟩ := List.getElem?_eq_some_iff.mp haddress
  have haddresses : Discovery.addresses
      { d with
        hosts := d.hosts.eraseIdx index
        log := d.log ++ [.removed host.ip.text] } = d.addresses.erase host.ip.text := by
    rw [← hvalue, h.distinct.erase_getElem]
    exact (List.eraseIdx_map _ _ _).symm
  constructor
  · exact (List.length_eraseIdx_le _ _).trans h.few
  · rw [haddresses]
    exact h.distinct.erase _
  · rw [haddresses]
    exact fun hmem => h.named (List.mem_of_mem_erase hmem)
  · intro ip
    rw [haddresses, h.distinct.mem_erase_iff, h.present]
    refine Iff.trans ?_ present_snoc.symm
    constructor
    · exact fun ⟨hother, hpending⟩ => .inr ⟨fun heq => hother heq.symm, hpending⟩
    · rintro (hadds | ⟨hremoves, hpending⟩)
      · exact hadds.elim
      · exact ⟨fun heq => hremoves heq.symm, hpending⟩
  · intro x hx
    obtain ⟨j, hne, hj⟩ := List.mem_eraseIdx_iff_getElem?.mp hx
    have hother : x.ip.text ≠ host.ip.text := by
      intro heq
      have hsecond : d.addresses[j]? = some host.ip.text := by
        simp [Discovery.addresses, hj, heq]
      exact hne ((List.getElem?_inj hlt h.distinct).mp (haddress.trans hsecond.symm)).symm
    have hsame : Answered x.ip.text (d.log ++ [.removed host.ip.text]) ↔
        Answered x.ip.text d.log :=
      pending_of_neutral id fun heq => hother (Eq.symm heq)
    rw [Truthful, hsame]
    exact h.truthful x (List.mem_of_getElem? hj)

/-- The list is cleared. -/
theorem listed_cleared (d : Discovery) :
    Listed { d with hosts := [], log := d.log ++ [.cleared] } where
  few := Nat.zero_le _
  distinct := List.nodup_nil
  named := List.not_mem_nil
  present := by
    intro ip
    exact iff_of_false List.not_mem_nil (not_pending_of_settles id trivial)
  truthful := fun _ hno => absurd hno List.not_mem_nil

/-! ## The operations -/

/-- An address that is found is the one of the host at the index. -/
theorem findHostIndexByIp_some {index : ℕ} (h : d.findHostIndexByIp ip = some index) :
    ∃ host, d.hosts[index]? = some host ∧ host.ip.text = ip := by
  obtain ⟨hlt, hip, -⟩ := List.findIdx?_eq_some_iff_getElem.mp h
  exact ⟨d.hosts[index], List.getElem?_eq_getElem hlt, of_decide_eq_true hip⟩

theorem findHostIndexByIp_none (h : d.findHostIndexByIp ip = none) : ip ∉ d.addresses := by
  intro hmem
  obtain ⟨host, hhost, rfl⟩ := List.mem_map.mp hmem
  have hno := List.findIdx?_eq_none_iff.mp h host hhost
  simp at hno

/-- An addition leaves every host of its address offline. -/
theorem Listed.addOrUpdateHost (h : Listed d) (ip : Field 16) (name : Text)
    (mac : Option Text) :
    Listed (d.addOrUpdateHost ip name mac 0) ∧
      ∀ host ∈ (d.addOrUpdateHost ip name mac 0).hosts, host.ip.text = ip.text →
        host.status = 0 := by
  rw [Discovery.addOrUpdateHost]
  split
  · rename_i hempty
    refine ⟨h, fun host hhost hip => ?_⟩
    have hmem := mem_addresses hhost
    rw [hip, hempty] at hmem
    exact absurd hmem h.named
  · rename_i hnamed
    split
    · rename_i index hindex
      obtain ⟨old, hat, hip⟩ := findHostIndexByIp_some hindex
      have hlisted := h.modify hat (fun host => host.update ip name mac 0)
        (e := .added old.ip.text) .added rfl
        (.inr ⟨rfl, not_answered_added⟩)
      rw [hip] at hlisted
      refine ⟨hlisted, fun host hhost hsame => ?_⟩
      rcases hlisted.truthful host hhost with ⟨-, hanswered⟩ | ⟨hoffline, -⟩
      · rw [hsame] at hanswered
        exact absurd hanswered not_answered_added
      · exact hoffline
    · rename_i hindex
      have hnew := findHostIndexByIp_none hindex
      split
      · refine ⟨h, fun host hhost hip => ?_⟩
        exact absurd (hip ▸ mem_addresses hhost) hnew
      · rename_i hroom
        refine ⟨h.join (Nat.lt_of_not_le hroom) hnew hnamed rfl, fun host hhost hip => ?_⟩
        rcases List.mem_append.mp hhost with hold | hlast
        · exact absurd (hip ▸ mem_addresses hold) hnew
        · rw [List.mem_singleton.mp hlast]
          rfl

theorem httpProbeHost_cases (config : PairedHosts) (host : HostPC) (response : Option Text) :
    (httpProbeHost config host response).1.ip = host.ip ∧
      ((httpProbeHost config host response).2 = true ∧
          (httpProbeHost config host response).1.status = 1 ∨
        httpProbeHost config host response = (host, false)) := by
  rw [httpProbeHost.eq_def]
  split
  · exact ⟨rfl, .inr rfl⟩
  · split
    · exact ⟨rfl, .inr rfl⟩
    · exact ⟨rfl, .inl ⟨rfl, rfl⟩⟩

/-- A probe leaves the list in order, where a host that does not answer is put offline or
was so before. -/
theorem Listed.probe (h : Listed d) {index : ℕ} (response : Option Text) {offline : Bool}
    (hoffline : offline = true ∨ ∀ host, d.hosts[index]? = some host → host.status = 0) :
    Listed (d.probe index response offline) := by
  rw [Discovery.probe]
  split
  · exact h
  · rename_i host hat
    obtain ⟨hip, hcases⟩ := httpProbeHost_cases d.config host response
    dsimp only
    rw [List.set_eq_modify]
    refine h.modify hat (fun _ => _) (.probed _) ?_ ?_
    · split
      · exact hip
      · exact hip
    · rcases hcases with ⟨hanswered, hstatus⟩ | hsilent
      · rw [hanswered, Bool.not_true, Bool.false_and, if_neg Bool.false_ne_true]
        refine .inl ⟨hstatus, ?_⟩
        rw [hip]
        exact (answered_probed true).mpr rfl
      · rw [hsilent]
        refine .inr ⟨?_, ?_⟩
        · split
          · rfl
          · rename_i hkept
            rcases hoffline with rfl | hbefore
            · exact absurd rfl hkept
            · exact hbefore host hat
        · have hno : ¬ Answered host.ip.text (d.log ++ [.probed host.ip.text false]) :=
            fun hanswered => Bool.false_ne_true ((answered_probed false).mp hanswered)
          split
          · exact hno
          · exact hno

theorem Listed.withManual (h : Listed d) (manualHosts : List ManualHostEntry) :
    Listed { d with manualHosts := manualHosts } :=
  h.of_same rfl rfl

theorem Listed.readPaired (h : Listed d) (ip : Text) : Listed (d.readPaired ip) := by
  rw [Discovery.readPaired]
  split
  · exact h
  · rename_i index hindex
    refine h.of_same ?_ rfl
    apply List.ext_getElem?
    intro j
    rw [List.getElem?_map, List.getElem?_map, List.getElem?_modify]
    by_cases hj : index = j
    · cases d.hosts[j]? with
      | none => simp
      | some x => simp [hj]
    · simp [hj]

theorem listed_loadManualHosts (d : Discovery) : Listed d.loadManualHosts := by
  rw [Discovery.loadManualHosts]
  refine List.foldlRecOn (motive := Listed) _ _ (listed_cleared d) fun d h entry _ => ?_
  exact ((h.addOrUpdateHost entry.ip entry.ip.text (some entry.mac.text)).1).readPaired _

theorem Listed.meet (h : Listed d) (ip : Field 16) (response : Option Text) :
    Listed (d.meet ip response) := by
  obtain ⟨hadded, hoffline⟩ := h.addOrUpdateHost ip ip.text none
  rw [Discovery.meet]
  split
  · exact hadded
  · rename_i index hindex
    refine hadded.probe response (.inr fun host hat => ?_)
    obtain ⟨x, hx, hip⟩ := findHostIndexByIp_some hindex
    obtain rfl := Option.some.inj (hx.symm.trans hat)
    exact hoffline x (List.mem_of_getElem? hx) hip

theorem Listed.mdnsDiscoverHosts (h : Listed d) (responses : List (Field 16 × Option Text)) :
    Listed (d.mdnsDiscoverHosts responses) := by
  rw [Discovery.mdnsDiscoverHosts]
  refine List.foldlRecOn (motive := Listed) _ _ h fun d h r _ => ?_
  split
  · exact h
  · exact h.meet r.1 r.2

theorem Listed.clamp (h : Listed d) : Listed d.clampSelectionWindow := by
  rw [Discovery.clampSelectionWindow]
  split
  · exact h.of_same rfl rfl
  · exact h.of_same rfl rfl

theorem Listed.scanNetwork (h : Listed d) (a : Discovery.ScanAnswers) :
    Listed (d.scanNetwork a) := by
  rw [Discovery.scanNetwork]
  have hprobed : Listed ((List.range d.hosts.length).foldl
      (fun d i => d.probe i (a.probes i) true) d) :=
    List.foldlRecOn (motive := Listed) _ _ h fun d h i _ => h.probe _ (.inl rfl)
  have hfound := hprobed.mdnsDiscoverHosts a.responses
  refine Listed.clamp ?_
  split
  · exact hfound.of_same rfl rfl
  · exact hfound

theorem Listed.subnetLoop (h : Listed d) (localIp : UInt32) (a : SubnetAnswers)
    (numbers : List ℕ) : Listed (d.subnetLoop localIp a numbers) := by
  induction numbers generalizing d with
  | nil => exact h
  | cons i rest ih =>
      rw [Discovery.subnetLoop]
      split
      · exact ih h
      · split
        · exact ih h
        · split
          · exact h
          · split
            · exact ih h
            · exact ih ((h.withManual _).meet _ _)

theorem Listed.quickSubnetScan (h : Listed d) (a : SubnetAnswers) :
    Listed (d.quickSubnetScan a) := by
  rw [Discovery.quickSubnetScan]
  split
  · exact h
  · exact h.subnetLoop _ a _

/-! ## The selection -/

theorem clampSelected_bounds {count : ℤ} (selected : ℤ) (hcount : 0 < count) :
    0 ≤ Discovery.clampSelected selected count ∧
      Discovery.clampSelected selected count < count := by
  rw [Discovery.clampSelected]
  split_ifs <;> omega

/-- The window shows the selected host and is filled. -/
theorem clampFirstVisible_bounds {selected count : ℤ} (first : ℤ) (hzero : 0 ≤ selected)
    (hlt : selected < count) :
    let first := Discovery.clampFirstVisible selected first count
    0 ≤ first ∧ first ≤ selected ∧ selected < first + maxVisibleHosts ∧
      (first = 0 ∨ first + maxVisibleHosts ≤ count) := by
  dsimp only [Discovery.clampFirstVisible, maxVisibleHosts]
  split_ifs <;> omega

/-- Behind `clampSelectionWindow` the selection is in order, whatever it was. -/
theorem selection_clamp (d : Discovery) : Selection d.clampSelectionWindow := by
  rw [Discovery.clampSelectionWindow]
  split
  · rename_i hcount
    have hempty : d.hosts = [] := by
      rw [← List.length_eq_zero_iff]
      simp only [Discovery.hostCount] at hcount
      omega
    exact ⟨fun _ => ⟨rfl, rfl⟩, fun hno => absurd hempty hno, ⟨Int.le_refl 0, Int.le_refl 0⟩,
      (by decide : (0 : ℤ) < 0 + maxVisibleHosts), .inl rfl⟩
  · rename_i hcount
    have hbounds := clampSelected_bounds d.selectedIndex (Int.not_le.mp hcount)
    obtain ⟨hzero, hle, hvisible, hfilled⟩ :=
      clampFirstVisible_bounds d.firstVisibleIndex hbounds.1 hbounds.2
    refine ⟨fun hempty => ?_, fun _ => hbounds.2, ⟨hzero, hle⟩, hvisible, hfilled⟩
    have hnone : d.hosts = [] := hempty
    simp [Discovery.hostCount, hnone] at hcount

theorem Selection.of_same (h : Selection d) {d' : Discovery}
    (hlength : d'.hosts.length = d.hosts.length) (hselected : d'.selectedIndex = d.selectedIndex)
    (hfirst : d'.firstVisibleIndex = d.firstVisibleIndex) : Selection d' := by
  have hcount : d'.hostCount = d.hostCount := by rw [Discovery.hostCount, hlength]; rfl
  have hempty : d'.hosts = [] ↔ d.hosts = [] := by
    rw [← List.length_eq_zero_iff, hlength, List.length_eq_zero_iff]
  obtain ⟨empty, inList, first, visible, filled⟩ := h
  constructor
  · rwa [hempty, hselected, hfirst]
  · rwa [Ne, hempty, hselected, hcount]
  · rwa [hfirst, hselected]
  · rwa [hfirst, hselected]
  · rwa [hfirst, hcount]

/-- With hosts in the list, the selected one is found. -/
theorem Selection.selectedHost (h : Selection d) (hcount : d.hostCount > 0) :
    ∃ host, d.hosts[d.selectedIndex.toNat]? = some host ∧ d.selectedHost = some host ∧
      d.getSelected = some host := by
  have hne : d.hosts ≠ [] := by
    rintro hempty
    simp [Discovery.hostCount, hempty] at hcount
  have hin := h.inList hne
  have hzero : 0 ≤ d.selectedIndex := Int.le_trans h.first.1 h.first.2
  have hlt : d.selectedIndex.toNat < d.hosts.length := by
    simp only [Discovery.hostCount] at hin
    omega
  have hat := List.getElem?_eq_getElem hlt
  have hselected : d.selectedHost = some d.hosts[d.selectedIndex.toNat] := by
    rw [Discovery.selectedHost, if_neg (Int.not_lt.mpr hzero), hat]
  refine ⟨_, hat, hselected, ?_⟩
  rw [Discovery.getSelected, if_neg (by omega), hselected]

/-! ## A frame -/

theorem SoundPage.clamp (h : Listed d) : SoundPage d.clampSelectionWindow :=
  ⟨h.clamp, selection_clamp d⟩

theorem SoundPage.of_same (h : SoundPage d) {d' : Discovery} (hhosts : d'.hosts = d.hosts)
    (hlog : d'.log = d.log) (hselected : d'.selectedIndex = d.selectedIndex)
    (hfirst : d'.firstVisibleIndex = d.firstVisibleIndex) : SoundPage d' :=
  ⟨h.listed.of_same (by rw [hhosts]) hlog,
    h.selection.of_same (by rw [hhosts]) hselected hfirst⟩

theorem length_probe (d : Discovery) (index : ℕ) (response : Option Text) (offline : Bool) :
    (d.probe index response offline).hosts.length = d.hosts.length ∧
      (d.probe index response offline).selectedIndex = d.selectedIndex ∧
      (d.probe index response offline).firstVisibleIndex = d.firstVisibleIndex := by
  rw [Discovery.probe]
  split
  · exact ⟨rfl, rfl, rfl⟩
  · exact ⟨List.length_set, rfl, rfl⟩

theorem SoundPage.moveUp (h : SoundPage d) : SoundPage d.moveUp := by
  rw [Discovery.moveUp]
  split
  · exact SoundPage.clamp (h.listed.of_same rfl rfl)
  · exact h

theorem SoundPage.moveDown (h : SoundPage d) : SoundPage d.moveDown := by
  rw [Discovery.moveDown]
  split
  · exact SoundPage.clamp (h.listed.of_same rfl rfl)
  · exact h

theorem SoundPage.search (h : SoundPage d) (a : Discovery.FrameAnswers) :
    SoundPage (d.search a) :=
  SoundPage.clamp ((h.listed.scanNetwork a.scan).quickSubnetScan a.subnet)

theorem SoundPage.deleteSelected (h : SoundPage d)
    (hat : d.hosts[d.selectedIndex.toNat]? = some host) : SoundPage (d.deleteSelected host) := by
  rw [Discovery.deleteSelected]
  exact SoundPage.clamp ((h.listed.remove hat).of_same rfl rfl)

theorem SoundPage.takeIn (h : Listed d) (ip : Field 16) (response : Option Text) :
    SoundPage (d.takeIn ip response) := by
  have hadded := SoundPage.clamp (h.addOrUpdateHost ip ip.text none).1
  rw [Discovery.takeIn]
  split
  · exact hadded
  · rename_i index hindex
    obtain ⟨hlength, hselected, hfirst⟩ := length_probe _ index response true
    exact ⟨hadded.listed.probe _ (.inl rfl),
      hadded.selection.of_same hlength hselected hfirst⟩

theorem SoundPage.addTyped (h : SoundPage d) (a : Discovery.FrameAnswers) :
    SoundPage (d.addTyped a) := by
  rw [Discovery.addTyped]
  split
  · exact h
  · dsimp only
    split
    · exact SoundPage.takeIn (h.listed.withManual _) _ _
    · exact h.of_same rfl rfl rfl rfl

theorem SoundPage.withButtons (h : SoundPage d) (buttons : UInt32) :
    SoundPage { d with prevButtons := buttons } :=
  h.of_same rfl rfl rfl rfl

theorem SoundPage.choose (h : SoundPage d) (a : Discovery.FrameAnswers)
    (pressed : UInt32 → Bool) :
    ∃ r, d.choose a pressed = some r ∧ SoundPage r.1 ∧ FrameLaw r := by
  have hpage := h.withButtons a.pad
  have hleft : FrameLaw (d, -4) := .inr (.inr (.inl rfl))
  rw [Discovery.choose]
  by_cases hcount : d.hostCount > 0
  · obtain ⟨host, hat, hselected, hgiven⟩ := h.selection.selectedHost hcount
    rw [hselected]
    simp only [Option.bind_eq_bind, Option.bind_some, Option.pure_def, ite_self,
      if_neg (Int.not_le.mpr hcount)]
    split
    · exact ⟨_, rfl, h, hleft⟩
    · split
      · exact ⟨_, rfl, hpage, .inr (.inl rfl)⟩
      · split
        · exact ⟨_, rfl, hpage, .inl rfl⟩
        · refine ⟨_, rfl, hpage, ?_⟩
          rw [FrameLaw]
          split
          · refine .inr (.inr (.inr ⟨?_, rfl, host, List.mem_of_getElem? hat, hgiven⟩))
            exact Int.le_trans h.selection.first.1 h.selection.first.2
          · exact .inl rfl
  · simp only [hcount, and_false, if_false, if_pos (Int.not_lt.mp hcount), Option.pure_def]
    split
    · exact ⟨_, rfl, h, hleft⟩
    · split
      · exact ⟨_, rfl, hpage, .inr (.inl rfl)⟩
      · split
        · exact ⟨_, rfl, hpage, .inl rfl⟩
        · exact ⟨_, rfl, hpage, .inl rfl⟩

theorem SoundPage.react (h : SoundPage d) (a : Discovery.FrameAnswers)
    (pressed : UInt32 → Bool) :
    ∃ r, d.react a pressed = some r ∧ SoundPage r.1 ∧ FrameLaw r := by
  rw [Discovery.react]
  split
  · rename_i hasked
    obtain ⟨host, hat, hselected, -⟩ := h.selection.selectedHost hasked.1
    rw [hselected]
    refine ⟨_, rfl, ?_, .inl rfl⟩
    apply SoundPage.withButtons
    split
    · exact h.deleteSelected hat
    · exact h
  · split
    · exact ⟨_, rfl, (h.addTyped a).withButtons _, .inl rfl⟩
    · exact h.choose a pressed

/-- A step that may be left out. -/
theorem SoundPage.when {f : Discovery → Discovery} (hf : ∀ d, SoundPage d → SoundPage (f d))
    (h : SoundPage d) (c : Bool) : SoundPage (if c then f d else d) := by
  cases c
  · exact h
  · exact hf d h

/-- A frame returns, and leaves the page sound. -/
theorem SoundPage.frame (h : SoundPage d) (a : Discovery.FrameAnswers) :
    ∃ r, d.frame a = some r ∧ SoundPage r.1 ∧ FrameLaw r := by
  rw [Discovery.frame]
  split
  · exact ⟨_, rfl, h, .inr (.inr (.inl rfl))⟩
  · split
    · exact ⟨_, rfl, h.withButtons _, .inl rfl⟩
    · have hup := h.when (fun _ h => h.moveUp)
        (held a.pad ctrlUp && !held d.prevButtons ctrlUp)
      have hdown := hup.when (fun _ h => h.moveDown)
        (held a.pad ctrlDown && !held d.prevButtons ctrlDown)
      exact (hdown.when (fun _ h => h.search a) _).react a _

/-! ## Runs -/

theorem SoundPage.markOnline (h : SoundPage d) (ip : Text) : SoundPage (d.markOnline ip) := by
  rw [Discovery.markOnline]
  split
  · exact h
  · split
    · exact h
    · rename_i index hindex
      obtain ⟨host, hat, rfl⟩ := findHostIndexByIp_some hindex
      exact ⟨h.listed.modify hat _ .marked rfl (.inl ⟨rfl, answered_marked⟩),
        h.selection.of_same (List.length_modify _ _ _) rfl rfl⟩

theorem SoundPage.call (h : SoundPage d) (c : DiscoveryCall) :
    ∃ d', d.call c = some d' ∧ SoundPage d' := by
  cases c with
  | init a =>
      exact ⟨_, rfl, (SoundPage.clamp ((listed_loadManualHosts d).scanNetwork a)).withButtons 0⟩
  | frame a =>
      obtain ⟨r, hr, hsound, -⟩ := h.frame a
      exact ⟨r.1, by rw [Discovery.call, hr]; rfl, hsound⟩
  | markOnline ip => exact ⟨_, rfl, h.markOnline ip⟩
  | pairing config => exact ⟨_, rfl, h.of_same rfl rfl rfl rfl⟩
  | shutdown =>
      refine ⟨_, rfl, (listed_cleared d).of_same rfl rfl, fun _ => ⟨rfl, rfl⟩, ?_, ?_, ?_, .inl rfl⟩
      · exact fun hno => absurd rfl hno
      · exact ⟨Int.le_refl 0, Int.le_refl 0⟩
      · exact (by decide : (0 : ℤ) < 0 + maxVisibleHosts)

theorem soundPage_start (manualHosts : List ManualHostEntry) (config : PairedHosts) :
    SoundPage (.start manualHosts config) where
  listed :=
    { few := Nat.zero_le _
      distinct := List.nodup_nil
      named := List.not_mem_nil
      present := fun _ => iff_of_false List.not_mem_nil not_pending_nil
      truthful := fun _ hno => absurd hno List.not_mem_nil }
  selection :=
    { empty := fun _ => ⟨rfl, rfl⟩
      inList := fun hno => absurd rfl hno
      first := ⟨Int.le_refl 0, Int.le_refl 0⟩
      visible := (by decide : (0 : ℤ) < 0 + maxVisibleHosts)
      filled := .inl rfl }

theorem SoundPage.run (h : SoundPage d) (calls : List DiscoveryCall) :
    ∃ d', calls.foldlM Discovery.call d = some d' ∧ SoundPage d' := by
  induction calls generalizing d with
  | nil => exact ⟨d, rfl, h⟩
  | cons c calls ih =>
      obtain ⟨d', hcall, hd'⟩ := h.call c
      obtain ⟨d'', hrun, hsound⟩ := ih hd'
      refine ⟨d'', ?_, hsound⟩
      rw [List.foldlM_cons, hcall]
      exact hrun

/-- In every run of the page, whatever the hosts answer and the user presses, no frame looks
at a host that is not there; the list and the selection are in order; and a frame returns a
code, or the index of the host that is then handed out. -/
theorem hosts_run (manualHosts : List ManualHostEntry) (config : PairedHosts)
    (calls : List DiscoveryCall) :
    ∃ d, calls.foldlM Discovery.call (.start manualHosts config) = some d ∧
      SoundPage d ∧ ∀ a, ∃ r, d.frame a = some r ∧ FrameLaw r := by
  obtain ⟨d, hrun, hsound⟩ := (soundPage_start manualHosts config).run calls
  refine ⟨d, hrun, hsound, fun a => ?_⟩
  obtain ⟨r, hr, -, hlaw⟩ := hsound.frame a
  exact ⟨r, hr, hlaw⟩

end MoonlightPsp.Hosts
