import Mathlib.Algebra.GroupWithZero.Nat
import Mathlib.Data.List.Basic
import Mathlib.Data.List.InsertIdx
import MoonlightPsp.Lib.Loops
import MoonlightPsp.Lib.RecentlyUsed
import MoonlightPsp.Rtsp.Text

/-!
# The paired hosts

`config.c` remembers the last eight hosts it paired with, the most recent in
slot 0.
-/

namespace MoonlightPsp.Config

open Rtsp (Text)
open RecentlyUsed

/-- The text in a field `char[n]`. -/
structure Field (n : ℕ) where
  text : Text
  fits : text.length < n

deriving instance DecidableEq for Field

scoped instance neZero_sixteen : NeZero 16 := ⟨by decide⟩

scoped instance neZero_eighteen : NeZero 18 := ⟨by decide⟩

/-- A cleared field. -/
def Field.cleared (n : ℕ) [NeZero n] : Field n := ⟨[], Nat.pos_of_neZero n⟩

/-- `strncpy(field, text, n - 1)` into a cleared field. -/
def Field.strncpy (n : ℕ) [NeZero n] (text : Text) : Field n where
  text := text.take (n - 1)
  fits := by
    have hn := Nat.pos_of_neZero n
    rw [List.length_take]
    omega

@[simp] theorem Field.cleared_text (n : ℕ) [NeZero n] : (Field.cleared n).text = [] := rfl

@[ext] theorem Field.ext {n : ℕ} {a b : Field n} (h : a.text = b.text) : a = b := by
  cases a
  cases b
  cases h
  rfl

/-- A text that fits the field is stored whole. -/
theorem Field.strncpy_text {n : ℕ} [NeZero n] {text : Text} (h : text.length < n) :
    (Field.strncpy n text).text = text :=
  List.take_of_length_le (by omega)

/-- `pairedHostIps` and `pairedHostCount` of `PspConfig`. -/
structure PairedHosts where
  pairedHostCount : ℕ
  pairedHostIps : Vector (Field 16) 8
  deriving DecidableEq

namespace PairedHosts

/-- The empty list of `configSetDefaults`. -/
def initial : PairedHosts := ⟨0, Vector.replicate 8 (Field.cleared 16)⟩

/-- The hosts of the slots in use. -/
def hosts (config : PairedHosts) : List Text :=
  (config.pairedHostIps.toList.take config.pairedHostCount).map Field.text

end PairedHosts

/-- `config_is_host_paired`. -/
def configIsHostPaired (config : PairedHosts) (ip : Text) : Bool :=
  ip ≠ [] && config.hosts.any fun host => host ≠ [] && host = ip

/-- `for (i = n; i > 0; i--) memcpy(slots[i], slots[i - 1], 16)`. -/
def shiftSlots (slots : Vector (Field 16) 8) (n : ℕ) (hn : n < 8) :
    Vector (Field 16) 8 :=
  Nat.foldRev n (fun i _ slots => slots.set (i + 1) slots[i]) slots

/-- The shift of the entries before slot `n`, and `ip` in slot 0. -/
def placeFirst (slots : Vector (Field 16) 8) (n : ℕ) (hn : n < 8) (ip : Text) :
    Vector (Field 16) 8 :=
  (shiftSlots slots n hn).set 0 (Field.strncpy 16 ip)

/-- `config_add_paired_host`: the list it leaves and its return value.
`saveConfig` is the result of writing the file, which leaves the list alone. -/
def configAddPairedHost (saveConfig : PairedHosts → ℤ) (config : PairedHosts)
    (ip : Text) : PairedHosts × ℤ :=
  if ip = [] then (config, -1)
  else
    let existing := config.hosts.idxOf ip
    let added : PairedHosts :=
      if h : existing < min config.pairedHostCount 8 then
        if existing = 0 then config
        else
          { config with
            pairedHostIps := placeFirst config.pairedHostIps existing (by omega) ip }
      else
        -- a full list loses its last entry
        let count := if config.pairedHostCount < 8 then config.pairedHostCount else 7
        { pairedHostCount :=
            if config.pairedHostCount < 8 then config.pairedHostCount + 1
            else config.pairedHostCount
          pairedHostIps := placeFirst config.pairedHostIps count (by grind) ip }
    (added, saveConfig added)

/-- A run of `config_add_paired_host` calls from the empty list. -/
def addPairedHosts (saveConfig : PairedHosts → ℤ) (calls : List Text) : PairedHosts :=
  calls.foldl (fun config ip => (configAddPairedHost saveConfig config ip).1) .initial

/-! ## What one call does -/

variable {saveConfig : PairedHosts → ℤ} {config : PairedHosts} {ip : Text}

/-- The entries before slot `n` have moved up by one. -/
theorem shiftSlots_getElem (slots : Vector (Field 16) 8) (n : ℕ) (hn : n < 8)
    (j : ℕ) (hj : j < 8) :
    (shiftSlots slots n hn)[j] =
      if 0 < j ∧ j ≤ n then slots[j - 1] else slots[j] := by
  have hinv := Loops.foldRev_invariant
    (fun i (moved : Vector (Field 16) 8) => i ≤ n → ∀ j (hj : j < 8),
      moved[j] = if i < j ∧ j ≤ n then slots[j - 1] else slots[j])
    (f := fun i _ moved => moved.set (i + 1) moved[i]) (s := slots) (n := n)
  apply hinv
  · intro _ j hj
    rw [if_neg (by omega)]
  · intro i hi moved hmoved _ j hj
    rw [Vector.getElem_set]
    split
    · subst j
      rw [hmoved (by omega) i (by omega), if_neg (by omega), if_pos (by omega)]
      rfl
    · rw [hmoved (by omega) j hj]
      by_cases hij : i + 1 < j ∧ j ≤ n
      · rw [if_pos hij, if_pos (by omega)]
      · rw [if_neg hij, if_neg (by omega)]
  · omega

/-- Slot `n` gives way to `ip` in slot 0. -/
theorem placeFirst_toList (slots : Vector (Field 16) 8) (n : ℕ) (hn : n < 8)
    (ip : Text) :
    (placeFirst slots n hn ip).toList =
      Field.strncpy 16 ip :: slots.toList.eraseIdx n := by
  apply List.ext_getElem
  · rw [Vector.length_toList, List.length_cons, List.length_eraseIdx,
      Vector.length_toList, if_pos hn]
  · intro j hj _
    rw [Vector.length_toList] at hj
    rw [Vector.getElem_toList]
    simp only [placeFirst, Vector.getElem_set]
    cases j with
    | zero => rfl
    | succ j =>
        rw [if_neg (by omega), shiftSlots_getElem, List.getElem_cons_succ,
          List.getElem_eraseIdx]
        split
        · rw [dif_pos (by omega), Vector.getElem_toList]
          rfl
        · rw [dif_neg (by omega), Vector.getElem_toList]

theorem length_hosts (config : PairedHosts) :
    config.hosts.length = min config.pairedHostCount 8 := by
  rw [PairedHosts.hosts, List.length_map, List.length_take, Vector.length_toList]

/-- A stored host is the text of a slot. -/
theorem length_of_mem_hosts {host : Text} (h : host ∈ config.hosts) :
    host.length < 16 := by
  rw [PairedHosts.hosts, List.mem_map] at h
  obtain ⟨slot, _, rfl⟩ := h
  exact slot.fits

/-- A refused call changes nothing. -/
theorem configAddPairedHost_empty (saveConfig : PairedHosts → ℤ)
    (config : PairedHosts) :
    configAddPairedHost saveConfig config [] = (config, -1) := if_pos rfl

/-- A host that is not listed yet enters in front, and the last entry of a full
list goes. -/
theorem hosts_add_new (hcount : config.pairedHostCount ≤ 8) (hip : ip ≠ [])
    (hnew : ip ∉ config.hosts) :
    (configAddPairedHost saveConfig config ip).1.hosts =
      (ip.take 15 :: config.hosts).take 8 := by
  have hidx : config.hosts.idxOf ip = min config.pairedHostCount 8 := by
    rw [List.idxOf_eq_length hnew, length_hosts]
  rw [configAddPairedHost, if_neg hip]
  simp only [dif_neg (Nat.not_lt.mpr (Nat.le_of_eq hidx.symm))]
  simp only [PairedHosts.hosts]
  by_cases hfull : config.pairedHostCount < 8
  · simp only [if_pos hfull, placeFirst_toList, List.take_succ_cons]
    rw [List.take_eraseIdx_eq_take_of_le _ _ _ (Nat.le_refl _), List.map_cons, ← List.map_take,
      List.take_take, Nat.min_eq_right (by omega)]
    rfl
  · obtain hcount : config.pairedHostCount = 8 := by omega
    simp only [hcount, Nat.lt_irrefl, if_false, placeFirst_toList, List.take_succ_cons]
    rw [List.take_eraseIdx_eq_take_of_le _ _ _ (Nat.le_refl _), List.map_cons, ← List.map_take,
      List.take_take]
    rfl

/-- With a slot taken out of those in use, one less is in use. -/
theorem take_eraseIdx_succ {α : Type*} (l : List α) {n count : ℕ} (hn : n ≤ count) :
    (l.eraseIdx n).take count = (l.take (count + 1)).eraseIdx n :=
  List.ext_getElem (by grind) (by grind)

/-- A listed host moves to the front. -/
theorem hosts_add_existing (hip : ip ≠ []) (hold : ip ∈ config.hosts) :
    (configAddPairedHost saveConfig config ip).1.hosts = ip :: config.hosts.erase ip := by
  have hidx : config.hosts.idxOf ip < min config.pairedHostCount 8 := by
    rw [← length_hosts]
    exact List.idxOf_lt_length_of_mem hold
  rw [configAddPairedHost, if_neg hip]
  simp only [dif_pos hidx]
  by_cases hfirst : config.hosts.idxOf ip = 0
  · simp only [if_pos hfirst]
    cases hhosts : config.hosts with
    | nil => simp [hhosts] at hold
    | cons host hosts =>
        have hhead : host = ip := by
          by_contra hne
          rw [hhosts, List.idxOf_cons_ne _ hne] at hfirst
          exact Nat.succ_ne_zero _ hfirst
        rw [hhead, List.erase_cons_head]
  · simp only [if_neg hfirst]
    obtain ⟨count, hcount⟩ : ∃ count, config.pairedHostCount = count + 1 :=
      ⟨config.pairedHostCount - 1, by omega⟩
    have hshort : ip.length < 16 := length_of_mem_hosts hold
    rw [List.erase_eq_eraseIdx_of_idxOf rfl, PairedHosts.hosts]
    simp only [placeFirst_toList, hcount, List.take_succ_cons, List.map_cons]
    rw [Field.strncpy_text hshort, take_eraseIdx_succ _ (by omega), ← List.eraseIdx_map,
      ← hcount]
    rfl

/-- The count stays within the eight slots. -/
theorem count_add_le (hcount : config.pairedHostCount ≤ 8) :
    (configAddPairedHost saveConfig config ip).1.pairedHostCount ≤ 8 := by
  rw [configAddPairedHost]
  grind

/-- One call with a host that fits a slot is one use of it. -/
theorem hosts_add (hcount : config.pairedHostCount ≤ 8) (hip : ip ≠ [])
    (hfits : ip.length < 16) :
    (configAddPairedHost saveConfig config ip).1.hosts = touch 8 ip config.hosts := by
  rw [touch]
  by_cases hold : ip ∈ config.hosts
  · rw [hosts_add_existing hip hold]
    refine (List.take_of_length_le ?_).symm
    have hlen := length_hosts config
    have hpos := List.length_pos_of_mem hold
    rw [List.length_cons, List.length_erase_of_mem hold]
    omega
  · have hwhole : ip.take 15 = ip := List.take_of_length_le (by omega)
    rw [hosts_add_new hcount hip hold, hwhole, List.erase_of_not_mem hold]

/-- The check right after a call finds the host exactly when it is not empty and
fits a slot. -/
theorem isPaired_add (hcount : config.pairedHostCount ≤ 8) :
    configIsHostPaired (configAddPairedHost saveConfig config ip).1 ip = true ↔
      ip ≠ [] ∧ ip.length < 16 := by
  have hcheck (config : PairedHosts) :
      configIsHostPaired config ip = true ↔ ip ≠ [] ∧ ip ∈ config.hosts := by
    simp only [configIsHostPaired, Bool.and_eq_true, decide_eq_true_eq, List.any_eq_true]
    constructor
    · rintro ⟨hip, host, hmem, _, rfl⟩
      exact ⟨hip, hmem⟩
    · rintro ⟨hip, hmem⟩
      exact ⟨hip, ip, hmem, hip, rfl⟩
  rw [hcheck]
  constructor
  · rintro ⟨hip, hmem⟩
    exact ⟨hip, length_of_mem_hosts hmem⟩
  · rintro ⟨hip, hfits⟩
    refine ⟨hip, ?_⟩
    rw [hosts_add hcount hip hfits, touch, List.take_succ_cons]
    exact List.mem_cons_self

/-! ## Runs -/

theorem count_addPairedHosts_le (saveConfig : PairedHosts → ℤ) (calls : List Text) :
    (addPairedHosts saveConfig calls).pairedHostCount ≤ 8 := by
  induction calls using List.reverseRecOn with
  | nil => exact Nat.zero_le 8
  | append_singleton calls ip ih =>
      rw [addPairedHosts, List.foldl_append]
      exact count_add_le ih

/-- A run with hosts that fit a slot keeps the eight used last. -/
theorem hosts_addPairedHosts (saveConfig : PairedHosts → ℤ) (calls : List Text)
    (hfits : ∀ ip ∈ calls, ip.length < 16) :
    (addPairedHosts saveConfig calls).hosts =
      (recent (calls.filter fun ip => ip ≠ [])).take 8 := by
  rw [← foldl_touch]
  induction calls using List.reverseRecOn with
  | nil => rfl
  | append_singleton calls ip ih =>
      have hcount := count_addPairedHosts_le saveConfig calls
      have hprev := ih fun host hhost =>
        hfits host (List.mem_append_left _ hhost)
      rw [addPairedHosts, List.foldl_append, List.foldl_cons, List.foldl_nil]
      rw [addPairedHosts] at hprev hcount
      by_cases hip : ip = []
      · rw [hip, configAddPairedHost_empty]
        simpa using hprev
      · rw [hosts_add hcount hip (hfits ip (by simp)), hprev, List.filter_append,
          List.foldl_append]
        simp [hip]

/-- In every run the check right after a call finds the host exactly when it is
not empty and fits a slot; and where all hosts fit, the list holds the last eight
distinct ones, the most recent first. -/
theorem pairedHosts_run (saveConfig : PairedHosts → ℤ) (calls : List Text) :
    (∀ ip, configIsHostPaired
        (configAddPairedHost saveConfig (addPairedHosts saveConfig calls) ip).1 ip = true ↔
      ip ≠ [] ∧ ip.length < 16) ∧
    ((∀ ip ∈ calls, ip.length < 16) →
      (addPairedHosts saveConfig calls).hosts =
          (recent (calls.filter fun ip => ip ≠ [])).take 8 ∧
        (addPairedHosts saveConfig calls).hosts.Nodup) := by
  constructor
  · intro ip
    exact isPaired_add (count_addPairedHosts_le saveConfig calls)
  · intro hfits
    have hhosts := hosts_addPairedHosts saveConfig calls hfits
    refine ⟨hhosts, ?_⟩
    rw [hhosts]
    exact (nodup_recent _).sublist (List.take_sublist 8 _)

/-- Ten hosts, the second of them once more. -/
theorem pairedHosts_run_ten :
    (addPairedHosts (fun _ => 0)
      (["0", "1", "2", "3", "4", "5", "6", "7", "8", "9", "1"].map String.toList)).hosts =
      ["1", "9", "8", "7", "6", "5", "4", "3"].map String.toList :=
  ((pairedHosts_run (fun _ => 0)
    (["0", "1", "2", "3", "4", "5", "6", "7", "8", "9", "1"].map String.toList)).2
      (by decide)).1.trans (by decide)

/-- A name of 16 characters is cut to 15, is not found again and enters twice. -/
theorem pairedHosts_long_name :
    ¬ (∀ calls : List Text,
        (addPairedHosts (fun _ => 0) calls).hosts =
            (recent (calls.filter fun ip => ip ≠ [])).take 8 ∧
          (addPairedHosts (fun _ => 0) calls).hosts.Nodup ∧
          ∀ ip ≠ [], configIsHostPaired
            (configAddPairedHost (fun _ => 0) (addPairedHosts (fun _ => 0) calls) ip).1 ip =
              true) := by
  intro h
  have htwice := h ["living-room.home".toList, "living-room.home".toList]
  exact absurd htwice.2.1 (by decide)

end MoonlightPsp.Config
