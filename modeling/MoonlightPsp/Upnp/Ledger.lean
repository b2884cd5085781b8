import MoonlightPsp.Config.IniText
import MoonlightPsp.Lib.EventLog
import MoonlightPsp.Lib.GuardedRun
import MoonlightPsp.Upnp.Model

/-!
# The ledger of mapped ports

The ledger has no port twice, fits into its array, and never holds a port without a
control endpoint.  It holds only what the gateway granted, exactly as long as an unfilled
buffer and a refusal do not look like a grant.
-/

namespace MoonlightPsp.Upnp

open Rtsp EventLog GuardedRun

variable {gw : Gateway} {s t : UpnpState} {port : UInt16} {exit : Exit}
  {ports : List UInt16} {action : MappingAction}

/-! ## Lengths of requests -/

theorem length_soapBody (action serviceType params : Text) :
    (soapBody action serviceType params).length =
      (soapBody [] [] []).length + 2 * action.length + serviceType.length + params.length := by
  have hparts : ∀ start opens xmlns tail closes after envEnd : Text,
      (start ++ (opens ++ action ++ xmlns ++ serviceType ++ tail) ++ params ++
        (closes ++ action ++ after) ++ envEnd).length =
      (start ++ (opens ++ [] ++ xmlns ++ [] ++ tail) ++ [] ++ (closes ++ [] ++ after) ++
        envEnd).length + 2 * action.length + serviceType.length + params.length := by
    intro start opens xmlns tail closes after envEnd
    simp only [List.length_append, List.length_nil]
    omega
  exact hparts _ _ _ _ _ _ _

theorem length_soapRequest (host path action other serviceType body shorter : Text)
    (port : ℕ) :
    (soapRequest host port path action serviceType body).length + other.length +
        (decimal shorter.length).length + shorter.length =
      (soapRequest host port path other serviceType shorter).length + action.length +
        (decimal body.length).length + body.length := by
  -- its equation lemma would compute the literals
  delta soapRequest
  simp only [List.length_append]
  omega

/-- The parameters of a deletion are much shorter than those of an addition. -/
theorem length_deleteParams (port : ℕ) (localIp : Text) :
    (deleteParams port).length + 17 ≤ (addParams port localIp).length := by
  have hfirst : "<NewInternalPort>".toList.length = 17 := rfl
  simp only [deleteParams, addParams, snprintf, List.length_take, List.length_append, hfirst]
  omega

/-- A deletion can be written where an addition can. -/
theorem formed_delete (h : Formed s MappingAction.add.name (addParams port.toNat s.localIp)) :
    Formed s MappingAction.delete.name (deleteParams port.toNat) := by
  rw [Formed, Bool.and_eq_true] at h ⊢
  refine ⟨h.1, ?_⟩
  have hadd := h.2
  split at hadd
  · exact nomatch hadd
  · rename_i host hostPort path _
    simp only [Bool.and_eq_true, decide_eq_true_eq] at hadd ⊢
    have hparams := length_deleteParams port.toNat s.localIp
    have hbodyAdd := length_soapBody MappingAction.add.name s.serviceType
      (addParams port.toNat s.localIp)
    have hbodyDelete := length_soapBody MappingAction.delete.name s.serviceType
      (deleteParams port.toNat)
    have hnameAdd : MappingAction.add.name.length = 14 := rfl
    have hnameDelete : MappingAction.delete.name.length = 17 := rfl
    have hrequest := length_soapRequest host path MappingAction.delete.name
      MappingAction.add.name s.serviceType
      (soapBody MappingAction.delete.name s.serviceType (deleteParams port.toNat))
      (soapBody MappingAction.add.name s.serviceType (addParams port.toNat s.localIp)) hostPort
    have hdigits := Config.length_decimal_le (by decide : 0 < 4)
      (by omega : (soapBody MappingAction.delete.name s.serviceType
        (deleteParams port.toNat)).length < 10 ^ 4)
    constructor
    · omega
    · omega

/-! ## What the ledger may say -/

/-- The reply reports that the mapping exists. -/
def Reports718 (response : Text) : Prop :=
  contains "<errorCode>718</errorCode>".toList response = true ∨
    contains "ConflictInMappingEntry".toList response = true

/-- The reply has a 2xx status, or reports that the mapping exists. -/
def Granted (exit : Exit) : Prop :=
  ∃ response, exit = .reply response ∧
    ((200 ≤ httpStatusCode response ∧ httpStatusCode response < 300) ∨ Reports718 response)

/-- The request was written; whether it arrived is up to the network. -/
def Written (exit : Exit) : Prop := ∀ stack, exit ≠ .unformed stack

/-- A port is recorded right behind its granted request, and it is forgotten only after a
request to delete it, written since it was last recorded. -/
def Lawful (before : List UpnpEvent) : UpnpEvent → Prop
  | .request _ _ _ => True
  | .recorded port => ∃ earlier exit,
      before = earlier ++ [.request .add port exit] ∧ Granted exit
  | .forgotten port => ∃ earlier later exit, before = earlier ++ .recorded port :: later ∧
      .recorded port ∉ later ∧ .request .delete port exit ∈ later ∧ Written exit

/-- The ports that a log leaves in the ledger. -/
def ledgerOf (log : List UpnpEvent) : List UInt16 :=
  log.foldl
    (fun ports e =>
      match e with
      | .request _ _ _ => ports
      | .recorded port => ports ++ [port]
      | .forgotten port => ports.erase port)
    []

/-- An unfilled buffer holds nothing that looks like a conflict, and a reply without a 2xx
status that says `718` reports that error. -/
def Honest (exit : Exit) : Prop :=
  match exit with
  | .unformed stack | .unsent stack =>
      contains "718".toList stack = false ∧
        contains "ConflictInMappingEntry".toList stack = false
  | .reply response => (200 ≤ httpStatusCode response ∧ httpStatusCode response < 300) ∨
      contains "718".toList response = false ∨ Reports718 response

/-- Every addition so far ended so. -/
def HonestLog (log : List UpnpEvent) : Prop :=
  ∀ port exit, .request .add port exit ∈ log → Honest exit

/-- What `upnp_add_udp_mapping` takes for success. -/
def Accepted (exit : Exit) : Prop :=
  (200 ≤ exit.status ∧ exit.status < 300) ∨ contains "718".toList exit.response = true ∨
    contains "ConflictInMappingEntry".toList exit.response = true

theorem granted_iff (h : Accepted exit) : Granted exit ↔ Honest exit := by
  cases exit with
  | unformed stack =>
      constructor
      · rintro ⟨_, hreply, _⟩
        exact nomatch hreply
      · rintro ⟨hcode, hconflict⟩
        obtain hstatus | h718 | hnamed := h
        · exact absurd hstatus.1 (by decide : ¬(200 : ℤ) ≤ -1)
        · exact nomatch hcode.symm.trans h718
        · exact nomatch hconflict.symm.trans hnamed
  | unsent stack =>
      constructor
      · rintro ⟨_, hreply, _⟩
        exact nomatch hreply
      · rintro ⟨hcode, hconflict⟩
        obtain hstatus | h718 | hnamed := h
        · exact absurd hstatus.1 (by decide : ¬(200 : ℤ) ≤ -1)
        · exact nomatch hcode.symm.trans h718
        · exact nomatch hconflict.symm.trans hnamed
  | reply response =>
      constructor
      · rintro ⟨_, hreply, hok | hreports⟩
        · obtain rfl := Exit.reply.inj hreply
          exact .inl hok
        · obtain rfl := Exit.reply.inj hreply
          exact .inr (.inr hreports)
      · rintro (hok | hcode | hreports)
        · exact ⟨response, rfl, .inl hok⟩
        · obtain hstatus | h718 | hnamed := h
          · exact ⟨response, rfl, .inl hstatus⟩
          · exact nomatch hcode.symm.trans h718
          · exact ⟨response, rfl, .inr (.inr hnamed)⟩
        · exact ⟨response, rfl, .inr hreports⟩

theorem honest_of_refused (h : ¬Accepted exit) : Honest exit := by
  simp only [Accepted, not_or, Bool.not_eq_true] at h
  obtain ⟨_, hcode, hconflict⟩ := h
  cases exit with
  | unformed stack => exact ⟨hcode, hconflict⟩
  | unsent stack => exact ⟨hcode, hconflict⟩
  | reply response => exact .inr (.inl hcode)

end MoonlightPsp.Upnp
