import Mathlib.Data.List.Induction
import Mathlib.Data.List.Nodup
import MoonlightPsp.Upnp.Ledger

/-!
# Runs of the UPnP client

Every operation keeps the ledger free of duplicates, within its array and without a port
where no endpoint is cached, and the log lawful exactly as long as it is honest.
-/

namespace MoonlightPsp.Upnp

open Rtsp EventLog GuardedRun

variable {gw : Gateway} {s t : UpnpState} {port : UInt16} {exit : Exit}
  {ports : List UInt16} {log later : List UpnpEvent} 

/-! ## What one event adds to the log -/

theorem honestLog_append : HonestLog (log ++ later) ↔ HonestLog log ∧ HonestLog later := by
  constructor
  · intro h
    exact ⟨fun port exit hmem => h port exit (List.mem_append_left _ hmem),
      fun port exit hmem => h port exit (List.mem_append_right _ hmem)⟩
  · rintro ⟨hlog, hlater⟩ port exit hmem
    obtain hmem | hmem := List.mem_append.mp hmem
    · exact hlog port exit hmem
    · exact hlater port exit hmem

theorem honestLog_add : HonestLog [.request .add port exit] ↔ Honest exit := by
  constructor
  · intro h
    exact h port exit (List.mem_singleton_self _)
  · intro h port' exit' hmem
    obtain ⟨-, rfl, rfl⟩ := UpnpEvent.request.inj (List.mem_singleton.mp hmem)
    exact h

/-- Only additions can be dishonest. -/
theorem honestLog_of_no_add (h : ∀ port exit, .request .add port exit ∉ later) :
    HonestLog later :=
  fun port exit hmem => absurd hmem (h port exit)

theorem lawful_recorded :
    Lawful (log ++ [.request .add port exit]) (.recorded port) ↔ Granted exit := by
  constructor
  · rintro ⟨earlier, exit', hlog, hgranted⟩
    obtain ⟨-, hrequest⟩ := List.append_inj' hlog rfl
    obtain ⟨-, -, rfl⟩ := UpnpEvent.request.inj (List.singleton_inj.mp hrequest)
    exact hgranted
  · intro hgranted
    exact ⟨log, exit, rfl, hgranted⟩

theorem ledgerOf_append (log later : List UpnpEvent) :
    ledgerOf (log ++ later) =
      later.foldl
        (fun ports e =>
          match e with
          | .request _ _ _ => ports
          | .recorded port => ports ++ [port]
          | .forgotten port => ports.erase port)
        (ledgerOf log) :=
  List.foldl_append

/-- Requests alone do not change the ledger. -/
theorem ledgerOf_requests
    (h : ∀ e ∈ later, ∃ action port exit, e = .request action port exit) :
    ledgerOf (log ++ later) = ledgerOf log := by
  induction later generalizing log with
  | nil => rw [List.append_nil]
  | cons e later ih =>
      obtain ⟨action, port, exit, rfl⟩ := h e List.mem_cons_self
      rw [List.append_cons, ih fun d hd => h d (List.mem_cons_of_mem _ hd), ledgerOf_append]
      rfl

/-- A ledger from which every port is forgotten is empty. -/
theorem ledgerOf_forgotten (log : List UpnpEvent) :
    ledgerOf (log ++ (ledgerOf log).map .forgotten) = [] := by
  rw [ledgerOf_append, List.foldl_map]
  generalize ledgerOf log = ports
  induction ports with
  | nil => rfl
  | cons port ports ih =>
      rw [List.foldl_cons]
      dsimp only
      rwa [List.erase_cons_head]

theorem recorded_of_mem_ledgerOf (h : port ∈ ledgerOf log) : .recorded port ∈ log := by
  induction log using List.reverseRecOn with
  | nil => exact absurd h List.not_mem_nil
  | append_singleton log e ih =>
      rw [ledgerOf_append] at h
      cases e with
      | request action other exit => exact List.mem_append_left _ (ih h)
      | recorded other =>
          obtain hold | hnew := List.mem_append.mp h
          · exact List.mem_append_left _ (ih hold)
          · rw [List.mem_singleton.mp hnew]
            exact List.mem_append_right _ (List.mem_singleton_self _)
      | forgotten other => exact List.mem_append_left _ (ih (List.mem_of_mem_erase h))

/-! ## What one request does -/

theorem upnpAddUdpMapping_eq (gw : Gateway) (port : UInt16) (s : UpnpState) :
    upnpAddUdpMapping gw port s =
      let out := soapActionRequest gw .add port (addParams port.toNat s.localIp) s
      if 200 ≤ out.1.status ∧ out.1.status < 300 then (true, out.2)
      else
        (contains "718".toList out.1.response ||
          contains "ConflictInMappingEntry".toList out.1.response, out.2) :=
  rfl

/-- `upnp_add_udp_mapping` adds its request to the log, and judges how it ended. -/
theorem upnpAddUdpMapping_cases (gw : Gateway) (port : UInt16) (s : UpnpState) :
    ∃ exit,
      (upnpAddUdpMapping gw port s).2 = { s with
        clock := s.clock + 1
        log := s.log ++ [.request .add port exit] } ∧
      ((upnpAddUdpMapping gw port s).1 = true ↔ Accepted exit) ∧
      (∀ response, exit = .reply response →
        Formed s MappingAction.add.name (addParams port.toNat s.localIp) = true) := by
  refine ⟨(soapActionRequest gw .add port (addParams port.toNat s.localIp) s).1, ?_, ?_, ?_⟩
  · rw [upnpAddUdpMapping_eq, apply_ite Prod.snd]
    exact ite_self _
  · rw [upnpAddUdpMapping_eq, Accepted]
    dsimp only
    split
    · rename_i hok
      exact iff_of_true rfl (.inl hok)
    · rename_i hrefused
      rw [Bool.or_eq_true, or_iff_right hrefused]
  · intro response hreply
    by_contra hunformed
    rw [soapActionRequest, if_neg hunformed] at hreply
    exact Exit.noConfusion hreply

/-- `upnp_delete_udp_mapping` adds its request, written if that is possible. -/
theorem upnpDeleteUdpMapping_cases (gw : Gateway) (port : UInt16) (s : UpnpState) :
    ∃ exit,
      upnpDeleteUdpMapping gw port s = { s with
        clock := s.clock + 1
        log := s.log ++ [.request .delete port exit] } ∧
      (Formed s MappingAction.delete.name (deleteParams port.toNat) = true →
        Written exit) := by
  refine ⟨(soapActionRequest gw .delete port (deleteParams port.toNat) s).1, rfl, ?_⟩
  intro hformed stack
  rw [soapActionRequest, if_pos hformed]
  split
  · exact Exit.noConfusion
  · exact Exit.noConfusion

/-- All deletions together. -/
theorem deletions_cases (gw : Gateway) (ports : List UInt16) (s : UpnpState) :
    ∃ clock later,
      ports.foldl (fun s port => upnpDeleteUdpMapping gw port s) s = { s with
        clock := clock
        log := s.log ++ later } ∧
      (∀ e ∈ later, ∃ port exit, e = .request .delete port exit) ∧
      (∀ port ∈ ports, Formed s MappingAction.delete.name (deleteParams port.toNat) = true →
        ∃ exit, .request .delete port exit ∈ later ∧ Written exit) := by
  induction ports generalizing s with
  | nil =>
      refine ⟨s.clock, [], ?_, ?_, ?_⟩
      · rw [List.append_nil, List.foldl_nil]
      · intro e he
        exact absurd he List.not_mem_nil
      · intro port hport
        exact absurd hport List.not_mem_nil
  | cons port ports ih =>
      obtain ⟨exit, hdelete, hwritten⟩ := upnpDeleteUdpMapping_cases gw port s
      obtain ⟨clock, later, hfold, hkind, hsent⟩ := ih (upnpDeleteUdpMapping gw port s)
      rw [hdelete] at hfold hsent
      refine ⟨clock, .request .delete port exit :: later, ?_, ?_, ?_⟩
      · rw [List.foldl_cons, hdelete, hfold, List.append_assoc, List.singleton_append]
      · intro e he
        obtain rfl | he := List.mem_cons.mp he
        · exact ⟨port, exit, rfl⟩
        · exact hkind e he
      · intro port' hport' hformed
        obtain rfl | hport' := List.mem_cons.mp hport'
        · exact ⟨exit, List.mem_cons_self, hwritten hformed⟩
        · obtain ⟨exit', hmem, hwritten'⟩ := hsent port' hport' hformed
          exact ⟨exit', List.mem_cons_of_mem _ hmem, hwritten'⟩

/-! ## The invariant -/

/-- What holds between two operations.  A port of an honest ledger can be deleted. -/
structure Kept (s : UpnpState) : Prop where
  distinct : s.mappedPorts.Nodup
  bounded : s.mappedPorts.length ≤ maxMappedPorts
  cached : s.mappedPorts ≠ [] → s.haveControlEndpoint = true
  tracked : Always Lawful s.log ↔ HonestLog s.log
  ledger : s.mappedPorts = ledgerOf s.log
  deletable : HonestLog s.log → ∀ port ∈ s.mappedPorts,
    Formed s MappingAction.delete.name (deleteParams port.toNat) = true

/-- With an empty ledger only the log counts. -/
theorem Kept.of_empty (hports : s.mappedPorts = []) (hledger : ledgerOf s.log = [])
    (htracked : Always Lawful s.log ↔ HonestLog s.log) : Kept s where
  distinct := hports ▸ List.nodup_nil
  bounded := hports ▸ Nat.zero_le _
  cached h := absurd hports h
  tracked := htracked
  ledger := hports.trans hledger.symm
  deletable := by
    rw [hports]
    exact fun _ port hport => absurd hport List.not_mem_nil

theorem kept_start : Kept .start :=
  .of_empty rfl rfl (iff_of_true always_nil fun _ _ h => absurd h List.not_mem_nil)

/-- With an empty ledger, whatever leaves it and the log alone keeps the invariant. -/
theorem Kept.frame (h : Kept s) (hempty : s.mappedPorts = [])
    (hframe : t.mappedPorts = s.mappedPorts ∧ t.log = s.log) : Kept t := by
  obtain ⟨hports, hlog⟩ := hframe
  refine .of_empty (hports.trans hempty) ?_ ?_
  · rw [hlog, ← h.ledger, hempty]
  · rw [hlog, h.tracked]

theorem Kept.refused (h : Kept s) (clock : ℕ) (port : UInt16) (hrefused : ¬Accepted exit) :
    Kept { s with
      clock := clock
      log := s.log ++ [.request .add port exit] } where
  distinct := h.distinct
  bounded := h.bounded
  cached := h.cached
  tracked := by
    rw [always_snoc, honestLog_append, honestLog_add, h.tracked]
    exact and_congr_right fun _ => iff_of_true trivial (honest_of_refused hrefused)
  ledger := by
    rw [ledgerOf_append, ← h.ledger]
    rfl
  deletable hhonest := h.deletable (honestLog_append.mp hhonest).1

theorem Kept.accepted (h : Kept s) (clock : ℕ) (haccepted : Accepted exit)
    (hreply : ∀ response, exit = .reply response →
      Formed s MappingAction.add.name (addParams port.toNat s.localIp) = true)
    (hcached : s.haveControlEndpoint = true) (hnew : port ∉ s.mappedPorts)
    (hroom : s.mappedPorts.length < maxMappedPorts) :
    Kept { s with
      clock := clock
      mappedPorts := s.mappedPorts ++ [port]
      log := s.log ++ [.request .add port exit] ++ [.recorded port] } where
  distinct := by
    rw [← List.concat_eq_append]
    exact List.Nodup.concat hnew h.distinct
  bounded := by
    rw [List.length_append, List.length_singleton]
    exact hroom
  cached _ := hcached
  tracked := by
    have hrecorded : HonestLog [.recorded port] := by
      apply honestLog_of_no_add
      intro port' exit' hmem
      exact nomatch List.mem_singleton.mp hmem
    rw [always_snoc, always_snoc, lawful_recorded, granted_iff haccepted, honestLog_append,
      honestLog_append, honestLog_add, h.tracked]
    exact ⟨fun hall => ⟨⟨hall.1.1, hall.2⟩, hrecorded⟩,
      fun hall => ⟨⟨hall.1.1, trivial⟩, hall.1.2⟩⟩
  ledger := by
    rw [ledgerOf_append, ledgerOf_append, ← h.ledger]
    rfl
  deletable hhonest port' hport' := by
    have hlog := (honestLog_append.mp hhonest).1
    obtain hold | hport' := List.mem_append.mp hport'
    · exact h.deletable (honestLog_append.mp hlog).1 port' hold
    · obtain rfl := List.mem_singleton.mp hport'
      have hexit := honestLog_add.mp (honestLog_append.mp hlog).2
      obtain ⟨response, hresponse, -⟩ := (granted_iff haccepted).mpr hexit
      exact formed_delete (hreply response hresponse)

/-- The requested ports are new and fit behind the ledger. -/
structure Requestable (s : UpnpState) (ports : List UInt16) : Prop where
  distinct : ports.Nodup
  fresh : ∀ port ∈ ports, port ∉ s.mappedPorts
  room : s.mappedPorts.length + ports.length ≤ maxMappedPorts

theorem Requestable.tail (h : Requestable s (port :: ports))
    (hports : t.mappedPorts = s.mappedPorts ∨ t.mappedPorts = s.mappedPorts ++ [port]) :
    Requestable t ports where
  distinct := (List.nodup_cons.mp h.distinct).2
  fresh port' hport' := by
    have hold := h.fresh port' (List.mem_cons_of_mem _ hport')
    obtain hsame | hmore := hports
    · rwa [hsame]
    · rw [hmore, List.mem_append, List.mem_singleton]
      rintro (hmem | rfl)
      · exact hold hmem
      · exact (List.nodup_cons.mp h.distinct).1 hport'
  room := by
    have hroom := h.room
    rw [List.length_cons] at hroom
    obtain hsame | hmore := hports
    · rw [hsame]
      omega
    · rw [hmore, List.length_append, List.length_singleton]
      omega

/-- `map_requested_ports` keeps the invariant, and the ledger where it maps nothing. -/
theorem kept_mapRequestedPorts (gw : Gateway) (h : Kept s) (hcached : s.haveControlEndpoint = true)
    (hports : Requestable s ports) :
    Kept (mapRequestedPorts gw ports s).2 ∧
      ((mapRequestedPorts gw ports s).1 = 0 →
        (mapRequestedPorts gw ports s).2.mappedPorts = s.mappedPorts) := by
  induction ports generalizing s with
  | nil => exact ⟨h, fun _ => rfl⟩
  | cons port ports ih =>
      obtain ⟨exit, hstate, hok, hreply⟩ := upnpAddUdpMapping_cases gw port s
      have hroom : s.mappedPorts.length < maxMappedPorts := by
        have := hports.room
        rw [List.length_cons] at this
        omega
      rw [mapRequestedPorts]
      by_cases haccepted : (upnpAddUdpMapping gw port s).1 = true
      · dsimp only
        rw [if_pos haccepted, hstate, if_pos hroom]
        have hkept := h.accepted (s.clock + 1) (hok.mp haccepted) hreply hcached
          (hports.fresh port List.mem_cons_self) hroom
        have htail := ih hkept hcached (hports.tail (.inr rfl))
        exact ⟨htail.1, fun hzero => absurd hzero (Nat.succ_ne_zero _)⟩
      · dsimp only
        rw [if_neg haccepted, hstate]
        have hkept := h.refused (s.clock + 1) port (mt hok.mpr haccepted)
        exact ih hkept hcached (hports.tail (.inl rfl))

/-! ## The operations -/

theorem addUniquePort_nodup {maxCount : ℕ} (port : UInt16) (h : ports.Nodup)
    (hlength : ports.length ≤ maxCount) :
    (addUniquePort ports maxCount port).Nodup ∧
      (addUniquePort ports maxCount port).length ≤ maxCount := by
  rw [addUniquePort]
  split
  · exact ⟨h, hlength⟩
  · rename_i hroom
    split
    · exact ⟨h, hlength⟩
    · rename_i hnew
      rw [← List.concat_eq_append, List.length_concat]
      exact ⟨List.Nodup.concat hnew h, by omega⟩

theorem addPortPair_nodup (port : UInt16) (h : ports.Nodup) (hlength : ports.length ≤ 6) :
    (addPortPair ports port).Nodup ∧ (addPortPair ports port).length ≤ 6 := by
  have hfirst := addUniquePort_nodup port h hlength
  rw [addPortPair]
  split
  · exact addUniquePort_nodup (port + 1) hfirst.1 hfirst.2
  · exact hfirst

theorem requestedPorts_nodup (videoPort audioPort : UInt16) (audioEnabled : Bool) :
    (requestedPorts videoPort audioEnabled audioPort).Nodup ∧
      (requestedPorts videoPort audioEnabled audioPort).length ≤ 6 := by
  have hvideo := addPortPair_nodup videoPort List.nodup_nil (Nat.zero_le 6)
  rw [requestedPorts]
  split
  · exact addPortPair_nodup audioPort hvideo.1 hvideo.2
  · exact hvideo

/-- A port in the ledger may be forgotten once its deletion was requested. -/
theorem lawful_forgotten (hport : port ∈ ledgerOf log)
    (hdeleted : .request .delete port exit ∈ later) (hwritten : Written exit)
    (hlater : .recorded port ∉ later) :
    Lawful (log ++ later) (.forgotten port) := by
  obtain ⟨earlier, rest, hlog, hlast⟩ := last_occurrence (recorded_of_mem_ledgerOf hport)
  refine ⟨earlier, rest ++ later, exit, ?_, ?_, ?_, hwritten⟩
  · rw [hlog, List.append_assoc, List.cons_append]
  · rw [List.mem_append, not_or]
    exact ⟨hlast, hlater⟩
  · exact List.mem_append_right _ hdeleted

/-- A lawful log goes on with the deletions of the ports, and then forgets them. -/
theorem lawful_of_deletions (h : Always Lawful log) (hports : ledgerOf log = ports)
    (hkind : ∀ e ∈ later, ∃ port exit, e = .request .delete port exit)
    (hsent : ∀ port ∈ ports, ∃ exit, .request .delete port exit ∈ later ∧ Written exit) :
    Always Lawful (log ++ later ++ ports.map .forgotten) := by
  have hdeleted : Always Lawful (log ++ later) := by
    apply h.append
    intro e he before
    obtain ⟨port, exit, rfl⟩ := hkind e he
    exact trivial
  apply hdeleted.extend
  intro before e after hsplit
  have hmem : e ∈ ports.map .forgotten := by
    rw [hsplit]
    exact List.mem_append_right _ List.mem_cons_self
  obtain ⟨port, hport, rfl⟩ := List.mem_map.mp hmem
  obtain ⟨exit, hrequest, hwritten⟩ := hsent port hport
  rw [List.append_assoc]
  apply lawful_forgotten (hports ▸ hport) (List.mem_append_left _ hrequest) hwritten
  rw [List.mem_append, not_or]
  constructor
  · intro hrecorded
    obtain ⟨port', exit', hdelete⟩ := hkind _ hrecorded
    exact nomatch hdelete
  · intro hrecorded
    have hforgotten : .recorded port ∈ ports.map UpnpEvent.forgotten := by
      rw [hsplit]
      exact List.mem_append_left _ hrecorded
    obtain ⟨port', -, hother⟩ := List.mem_map.mp hforgotten
    exact nomatch hother

/-- `upnp_remove_stream_mappings` keeps the invariant and empties the ledger. -/
theorem kept_upnpRemoveStreamMappings (gw : Gateway) (h : Kept s) :
    Kept (upnpRemoveStreamMappings gw s) ∧
      (upnpRemoveStreamMappings gw s).mappedPorts = [] := by
  rw [upnpRemoveStreamMappings]
  split
  · rename_i hempty
    exact ⟨h, hempty⟩
  · rename_i hsome
    rw [if_neg (by rw [h.cached hsome]; exact Bool.noConfusion)]
    obtain ⟨clock, later, hfold, hkind, hsent⟩ := deletions_cases gw s.mappedPorts.reverse s
    have hrequests : ledgerOf (s.log ++ later) = s.mappedPorts := by
      rw [h.ledger]
      apply ledgerOf_requests
      intro e he
      obtain ⟨port, exit, rfl⟩ := hkind e he
      exact ⟨.delete, port, exit, rfl⟩
    rw [hfold]
    refine ⟨.of_empty rfl ?_ ?_, rfl⟩
    · have := ledgerOf_forgotten (s.log ++ later)
      rwa [hrequests] at this
    · have hlater : HonestLog (later ++ s.mappedPorts.map .forgotten) := by
        apply honestLog_of_no_add
        intro port exit hmem
        obtain hmem | hmem := List.mem_append.mp hmem
        · obtain ⟨port', exit', hdelete⟩ := hkind _ hmem
          exact nomatch hdelete
        · obtain ⟨port', -, hforgotten⟩ := List.mem_map.mp hmem
          exact nomatch hforgotten
      constructor
      · intro hlawful
        rw [forgetPorts, List.append_assoc, honestLog_append]
        exact ⟨h.tracked.mp hlawful.of_append.of_append, hlater⟩
      · intro hhonest
        rw [forgetPorts, List.append_assoc, honestLog_append] at hhonest
        exact lawful_of_deletions (h.tracked.mpr hhonest.1) h.ledger.symm hkind
          fun port hport => hsent port (List.mem_reverse.mpr hport)
            (h.deletable hhonest.1 port hport)

theorem getLocalIpv4_frame (gw : Gateway) (s : UpnpState) :
    (getLocalIpv4 gw s).2.mappedPorts = s.mappedPorts ∧ (getLocalIpv4 gw s).2.log = s.log := by
  rw [getLocalIpv4]
  split
  · exact ⟨rfl, rfl⟩
  · split <;> exact ⟨rfl, rfl⟩

/-- Discovery touches neither the ledger nor the log, and success leaves an endpoint. -/
theorem discoverControlEndpoint_frame (gw : Gateway) (s : UpnpState) :
    (discoverControlEndpoint gw s).2.mappedPorts = s.mappedPorts ∧
      (discoverControlEndpoint gw s).2.log = s.log ∧
      ((discoverControlEndpoint gw s).1 = true →
        (discoverControlEndpoint gw s).2.haveControlEndpoint = true) := by
  rw [discoverControlEndpoint]
  split
  · rename_i hcached
    exact ⟨rfl, rfl, fun _ => hcached⟩
  · dsimp only
    split
    · exact ⟨rfl, rfl, Bool.noConfusion⟩
    · exact ⟨rfl, rfl, fun _ => rfl⟩

/-- With an empty ledger the requested ports fit. -/
theorem requestable_of_empty (hports : s.mappedPorts = []) (videoPort audioPort : UInt16)
    (audioEnabled : Bool) :
    Requestable s (requestedPorts videoPort audioEnabled audioPort) where
  distinct := (requestedPorts_nodup videoPort audioPort audioEnabled).1
  fresh port _ := by
    rw [hports]
    exact List.not_mem_nil
  room := by
    have := (requestedPorts_nodup videoPort audioPort audioEnabled).2
    rw [hports, List.length_nil, maxMappedPorts]
    omega

/-- A discovery, and then the requests. -/
theorem kept_discover_map (h : Kept s) (hports : s.mappedPorts = []) (videoPort audioPort : UInt16)
    (audioEnabled : Bool) (hok : (discoverControlEndpoint gw s).1 = true) :
    Kept (mapRequestedPorts gw (requestedPorts videoPort audioEnabled audioPort)
        (discoverControlEndpoint gw s).2).2 ∧
      ((mapRequestedPorts gw (requestedPorts videoPort audioEnabled audioPort)
          (discoverControlEndpoint gw s).2).1 = 0 →
        (mapRequestedPorts gw (requestedPorts videoPort audioEnabled audioPort)
          (discoverControlEndpoint gw s).2).2.mappedPorts = []) := by
  obtain ⟨hframe, hlog, hcached⟩ := discoverControlEndpoint_frame gw s
  have hkept : Kept (discoverControlEndpoint gw s).2 := h.frame hports ⟨hframe, hlog⟩
  rw [hports] at hframe
  have hmap := kept_mapRequestedPorts gw hkept (hcached hok)
    (requestable_of_empty hframe videoPort audioPort audioEnabled)
  rwa [hframe] at hmap

/-- `upnp_prepare_stream_mappings` keeps the invariant. -/
theorem kept_upnpPrepareStreamMappings (h : Kept s) (targetHost : Text)
    (videoPort audioPort : UInt16) (audioEnabled : Bool) :
    Kept (upnpPrepareStreamMappings gw targetHost videoPort audioEnabled audioPort s).2 := by
  obtain ⟨hremoved, hempty⟩ := kept_upnpRemoveStreamMappings gw h
  rw [upnpPrepareStreamMappings]
  generalize upnpRemoveStreamMappings gw s = t at hremoved hempty
  dsimp only
  split
  · exact hremoved
  split
  · exact hremoved
  have hkept : Kept (getLocalIpv4 gw t).2 := hremoved.frame hempty (getLocalIpv4_frame gw t)
  have hlocal := (getLocalIpv4_frame gw t).1.trans hempty
  generalize getLocalIpv4 gw t = out at hkept hlocal
  split
  · exact hkept
  obtain ⟨hdiscover, hlog, -⟩ := discoverControlEndpoint_frame gw out.2
  by_cases hok : (discoverControlEndpoint gw out.2).1 = true
  · rw [if_neg (by rw [hok]; exact Bool.noConfusion)]
    obtain ⟨hmapped, hnone⟩ :=
      kept_discover_map hkept hlocal videoPort audioPort audioEnabled hok
    generalize mapRequestedPorts gw (requestedPorts videoPort audioEnabled audioPort)
      (discoverControlEndpoint gw out.2).2 = first at hmapped hnone
    split
    · exact hmapped
    rename_i hzero
    -- nothing was mapped, so nothing depends on the endpoint that is dropped
    have hcleared : (clearControlEndpointCache first.2).mappedPorts = [] := hnone (by omega)
    have hkept' : Kept (clearControlEndpointCache first.2) := hmapped.frame hcleared ⟨rfl, rfl⟩
    obtain ⟨hagain, hagainlog, -⟩ :=
      discoverControlEndpoint_frame gw (clearControlEndpointCache first.2)
    by_cases hok' : (discoverControlEndpoint gw (clearControlEndpointCache first.2)).1 = true
    · rw [if_neg (by rw [hok']; exact Bool.noConfusion)]
      obtain ⟨hmapped', -⟩ :=
        kept_discover_map hkept' hcleared videoPort audioPort audioEnabled hok'
      split
      · exact hmapped'
      · exact hmapped'
    · rw [if_pos (by rw [Bool.eq_false_iff.mpr hok']; rfl)]
      exact hkept'.frame hcleared ⟨hagain, hagainlog⟩
  · rw [if_pos (by rw [Bool.eq_false_iff.mpr hok]; rfl)]
    exact hkept.frame hlocal ⟨hdiscover, hlog⟩

theorem Kept.step (gw : Gateway) (h : Kept s) (op : UpnpOp) : Kept (s.step gw op) := by
  cases op with
  | prepare targetHost videoPort audioEnabled audioPort =>
      exact kept_upnpPrepareStreamMappings h targetHost videoPort audioPort audioEnabled
  | remove => exact (kept_upnpRemoveStreamMappings gw h).1

/-- A run of the client from its start. -/
theorem kept_run (gw : Gateway) (ops : List UpnpOp) :
    Kept (run (UpnpState.step gw) .start ops) := by
  induction ops using List.reverseRecOn with
  | nil => exact kept_start
  | append_singleton ops op ih =>
      rw [run_snoc]
      exact ih.step gw op

/-! ## The ledger -/

/-- In every run the ledger has no port twice, fits into its array, and holds a port only
while an endpoint is cached.  Each port was recorded behind its own granted request, and
forgotten after a request to delete it, if and only if every failed addition left a
buffer, and every refusal was a reply, that does not look like a grant. -/
theorem ledger_iff (gw : Gateway) (ops : List UpnpOp) :
    let s := run (UpnpState.step gw) .start ops
    s.mappedPorts.Nodup ∧ s.mappedPorts.length ≤ maxMappedPorts ∧
      (s.mappedPorts ≠ [] → s.haveControlEndpoint = true) ∧
      s.mappedPorts = ledgerOf s.log ∧
      (Always Lawful s.log ↔ HonestLog s.log) := by
  intro s
  have h : Kept s := kept_run gw ops
  exact ⟨h.distinct, h.bounded, h.cached, h.ledger, h.tracked⟩

/-- A gateway whose control URL names no port, so that no request can be made.  The
buffer holds `718`. -/
def portlessGateway : Gateway where
  localIp _ := some "10.0.0.2".toList
  ssdp _ := some ["LOCATION: http://10.0.0.1/\r\n\r\n".toList]
  tcp clock :=
    if clock = 1 then
      some ("HTTP/1.1 200 OK\r\n\r\n" ++
        "<serviceType>urn:schemas-upnp-org:service:WANIPConnection:1</serviceType>" ++
        "<controlURL>http://10.0.0.1:0/</controlURL></service>").toList
    else none
  stack _ := "718".toList

/-- An addition that could not be written, and looks like a conflict. -/
def unformedConflict : UpnpEvent → Bool
  | .request .add _ (.unformed stack) => contains "718".toList stack
  | _ => false

/-- The log of a stream from this gateway: a port is recorded though nothing was sent. -/
theorem portless_log :
    let s := run (UpnpState.step portlessGateway) .start
      [.prepare "1.1.1.1".toList 65535 false 0]
    s.log.any unformedConflict = true := by
  decide +kernel

theorem not_always_lawful :
    ¬∀ (gw : Gateway) (ops : List UpnpOp),
      let s := run (UpnpState.step gw) .start ops
      s.mappedPorts.Nodup ∧ s.mappedPorts.length ≤ maxMappedPorts ∧
        (s.mappedPorts ≠ [] → s.haveControlEndpoint = true) ∧
        s.mappedPorts = ledgerOf s.log ∧ Always Lawful s.log := by
  intro h
  obtain ⟨-, -, -, -, hlawful⟩ :=
    h portlessGateway [.prepare "1.1.1.1".toList 65535 false 0]
  have hhonest := (kept_run _ _).tracked.mp hlawful
  obtain ⟨e, hmem, hconflict⟩ := List.any_eq_true.mp portless_log
  cases e with
  | request action port exit =>
      cases action with
      | delete => exact nomatch hconflict
      | add =>
          have hexit := hhonest port exit hmem
          cases exit with
          | unformed stack => exact nomatch hexit.1.symm.trans hconflict
          | unsent stack => exact nomatch hconflict
          | reply response => exact nomatch hconflict
  | recorded port => exact nomatch hconflict
  | forgotten port => exact nomatch hconflict

end MoonlightPsp.Upnp
