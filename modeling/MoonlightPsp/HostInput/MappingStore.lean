import MoonlightPsp.Control.Nonces
import MoonlightPsp.HostInput.Packets

/-!
# The stored mapping of the buttons

The mapping is kept in memory and in a file that is a dump of the structure.  A file of 32
bytes is taken for one of the first format, any other length but that of the structure for
damaged.  What the program reads back is compared with a register that knows what is held
in memory and what the file is worth.
-/

namespace MoonlightPsp.HostInput

open MoonlightPsp.Control (putLe32 readLe32_putLe32)

/-! ## The mapping -/

/-- `ButtonMapping`, with its version. -/
structure VersionedMapping extends ButtonMapping where
  version : UInt32

/-- The file of the first format. -/
structure ButtonMappingV1 where
  l2Button : UInt32
  r2Button : UInt32
  rsUpButton : UInt32
  rsDownButton : UInt32
  rsLeftButton : UInt32
  rsRightButton : UInt32
  l3Button : UInt32
  r3Button : UInt32
  deriving DecidableEq

def buttonMappingVersion : UInt32 := 2
def rightStickModeButtons : UInt32 := 0
def rightStickModeAnalogNub : UInt32 := 1

/-- `set_default_mapping`, with the version. -/
def setDefaultMapping : VersionedMapping := ⟨defaultMapping, buttonMappingVersion⟩

/-- The single buttons of the pad, and none. -/
def knownButtons : List UInt32 :=
  [0, ctrlCross, ctrlCircle, ctrlSquare, ctrlTriangle, ctrlUp, ctrlDown, ctrlLeft, ctrlRight,
    ctrlLTrigger, ctrlRTrigger, ctrlStart, ctrlSelect]

/-- `mapping_button_supported`. -/
def mappingButtonSupported (button : UInt32) : Bool := knownButtons.contains button

/-- The factory setting of the first format. -/
def legacyFactoryDefault : ButtonMappingV1 where
  l2Button := ctrlCross
  r2Button := ctrlSquare
  rsUpButton := ctrlUp
  rsDownButton := ctrlDown
  rsLeftButton := ctrlLeft
  rsRightButton := ctrlRight
  l3Button := ctrlTriangle
  r3Button := ctrlCircle

/-- `sanitize_mapping_button`. -/
def sanitizeMappingButton (modifier button fallback : UInt32) : UInt32 :=
  let replacement := if modifier ≠ 0 ∧ fallback = modifier then 0 else fallback
  let button := if !mappingButtonSupported button then replacement else button
  if modifier ≠ 0 ∧ button = modifier then replacement else button

/-- `sanitize_mapping`. -/
def sanitizeMapping (m : VersionedMapping) : VersionedMapping :=
  let modifier :=
    if !mappingButtonSupported m.modifierButton then ctrlLTrigger else m.modifierButton
  { version := buttonMappingVersion
    modifierButton := modifier
    rightStickMode :=
      if m.rightStickMode > rightStickModeAnalogNub then rightStickModeButtons
      else m.rightStickMode
    l2Button := sanitizeMappingButton modifier m.l2Button ctrlLeft
    r2Button := sanitizeMappingButton modifier m.r2Button ctrlRight
    rsUpButton := sanitizeMappingButton modifier m.rsUpButton ctrlTriangle
    rsDownButton := sanitizeMappingButton modifier m.rsDownButton ctrlCross
    rsLeftButton := sanitizeMappingButton modifier m.rsLeftButton ctrlSquare
    rsRightButton := sanitizeMappingButton modifier m.rsRightButton ctrlCircle
    l3Button := sanitizeMappingButton modifier m.l3Button ctrlDown
    r3Button := sanitizeMappingButton modifier m.r3Button ctrlUp }

/-! ## The file -/

/-- The words of the structure, in their order. -/
def VersionedMapping.words (m : VersionedMapping) : List UInt32 :=
  [m.version, m.modifierButton, m.rightStickMode, m.l2Button, m.r2Button, m.rsUpButton,
    m.rsDownButton, m.rsLeftButton, m.rsRightButton, m.l3Button, m.r3Button]

/-- The memory of the structure. -/
def VersionedMapping.bytes (m : VersionedMapping) : List UInt8 := m.words.flatMap putLe32

/-- The structure in a memory. -/
def VersionedMapping.ofBytes (mem : List UInt8) : VersionedMapping where
  version := readLe32 mem 0
  modifierButton := readLe32 mem 4
  rightStickMode := readLe32 mem 8
  l2Button := readLe32 mem 12
  r2Button := readLe32 mem 16
  rsUpButton := readLe32 mem 20
  rsDownButton := readLe32 mem 24
  rsLeftButton := readLe32 mem 28
  rsRightButton := readLe32 mem 32
  l3Button := readLe32 mem 36
  r3Button := readLe32 mem 40

/-- The structure of the first format in a memory. -/
def ButtonMappingV1.ofBytes (mem : List UInt8) : ButtonMappingV1 where
  l2Button := readLe32 mem 0
  r2Button := readLe32 mem 4
  rsUpButton := readLe32 mem 8
  rsDownButton := readLe32 mem 12
  rsLeftButton := readLe32 mem 16
  rsRightButton := readLe32 mem 20
  l3Button := readLe32 mem 24
  r3Button := readLe32 mem 28

/-- `sizeof(ButtonMapping)`. -/
def mappingSize : ℕ := 44

/-- `sizeof(ButtonMappingV1)`. -/
def mappingSizeV1 : ℕ := 32

/-- The mapping that a file of the first format stands for. -/
def migrateLegacy (legacy : ButtonMappingV1) : VersionedMapping :=
  if legacy = legacyFactoryDefault then setDefaultMapping
  else
    { setDefaultMapping with
      l2Button := legacy.l2Button
      r2Button := legacy.r2Button
      rsUpButton := legacy.rsUpButton
      rsDownButton := legacy.rsDownButton
      rsLeftButton := legacy.rsLeftButton
      rsRightButton := legacy.rsRightButton
      l3Button := legacy.l3Button
      r3Button := legacy.r3Button }

/-- What the system answers when the file is read: whether a file that exists opens, and
whether the read fails. -/
structure MappingRead where
  opens : Bool
  fails : Bool

/-- What it answers when the file is written: whether it opens, and how many bytes get
into it. -/
structure MappingWrite where
  opens : Bool
  written : ℕ

/-- `load_mapping`: the mapping that is then in memory. -/
def loadMapping (file : Option (List UInt8)) (a : MappingRead) : VersionedMapping :=
  match file with
  | none => setDefaultMapping
  | some content =>
      if !a.opens then setDefaultMapping
      else
        let data := if a.fails then [] else content.take mappingSize
        let readLen : ℤ := if a.fails then -1 else data.length
        let mem := data ++ setDefaultMapping.bytes.drop data.length
        sanitizeMapping
          (if readLen = mappingSizeV1 then migrateLegacy (.ofBytes mem)
          else if readLen ≠ mappingSize then setDefaultMapping
          else .ofBytes mem)

/-! ## The program -/

/-- `g_mapping`, `g_mapping_loaded` and the file. -/
structure MappingStore where
  mapping : VersionedMapping
  loaded : Bool
  file : Option (List UInt8)

/-- `input_save_mapping`. -/
def inputSaveMapping (s : MappingStore) (a : MappingWrite) : MappingStore :=
  let m := sanitizeMapping { s.mapping with version := buttonMappingVersion }
  if !a.opens then { s with mapping := m }
  else { mapping := m, loaded := true, file := some (m.bytes.take a.written) }

/-- `button_mapping_get`, with the mapping that it gives. -/
def buttonMappingGet (s : MappingStore) (a : MappingRead) : MappingStore × VersionedMapping :=
  let s := if !s.loaded then { s with mapping := loadMapping s.file a, loaded := true } else s
  (s, s.mapping)

/-- `button_mapping_set`. -/
def buttonMappingSet (s : MappingStore) (m : VersionedMapping) (a : MappingWrite) :
    MappingStore :=
  inputSaveMapping { s with mapping := m } a

/-- What happens to the mapping: the settings page reads and writes it, a stream loads it,
and the program is started again. -/
inductive MappingCall where
  | get (a : MappingRead)
  | set (m : VersionedMapping) (a : MappingWrite)
  | init (a : MappingRead)
  | restart

/-- The mapping before anything is loaded, which is zero. -/
def zeroMapping : VersionedMapping := .ofBytes []

/-- One call, with the mapping that it gives. -/
def MappingStore.call (s : MappingStore) : MappingCall → MappingStore × Option VersionedMapping
  | .get a => ((buttonMappingGet s a).1, some (buttonMappingGet s a).2)
  | .set m a => (buttonMappingSet s m a, none)
  | .init a => ({ s with mapping := loadMapping s.file a, loaded := true }, none)
  | .restart => ({ s with mapping := zeroMapping, loaded := false }, none)

/-- The calls one after another, with the mappings that they give. -/
def MappingStore.run (s : MappingStore) : List MappingCall → List (Option VersionedMapping)
  | [] => []
  | c :: calls => (s.call c).2 :: (s.call c).1.run calls

/-! ## The register -/

/-- What a file is worth after a mapping was written to it up to some byte: cut after 32
bytes it is read as the first format, with the version in the place of a button. -/
def worthOfWrite (m : VersionedMapping) (written : ℕ) : VersionedMapping :=
  if mappingSize ≤ written then m
  else if written = mappingSizeV1 then
    sanitizeMapping
      (migrateLegacy ⟨m.version, m.modifierButton, m.rightStickMode, m.l2Button, m.r2Button,
        m.rsUpButton, m.rsDownButton, m.rsLeftButton⟩)
  else setDefaultMapping

/-- The mapping in memory, if one is, and the one that a read of the file gives. -/
structure MappingRegister where
  held : Option VersionedMapping
  kept : VersionedMapping

/-- What a load gives. -/
def MappingRegister.load (r : MappingRegister) (a : MappingRead) : VersionedMapping :=
  if a.opens ∧ ¬ a.fails then r.kept else setDefaultMapping

/-- One call of the register. -/
def MappingRegister.call (r : MappingRegister) :
    MappingCall → MappingRegister × Option VersionedMapping
  | .get a => ({ r with held := some (r.held.getD (r.load a)) }, some (r.held.getD (r.load a)))
  | .set m a =>
      if a.opens then (⟨some (sanitizeMapping m), worthOfWrite (sanitizeMapping m) a.written⟩, none)
      else ({ r with held := r.held.map fun _ => sanitizeMapping m }, none)
  | .init a => ({ r with held := some (r.load a) }, none)
  | .restart => ({ r with held := none }, none)

def MappingRegister.run (r : MappingRegister) : List MappingCall → List (Option VersionedMapping)
  | [] => []
  | c :: calls => (r.call c).2 :: (r.call c).1.run calls

/-- The register of a store. -/
def MappingStore.register (s : MappingStore) : MappingRegister where
  held := if s.loaded then some s.mapping else none
  kept := loadMapping s.file ⟨true, false⟩

/-! ## Mappings that can be used -/

/-- A button that is one of the pad's, or none, and is not the modifier. -/
structure Usable (modifier button : UInt32) : Prop where
  known : mappingButtonSupported button = true
  other : modifier ≠ 0 → button ≠ modifier

/-- Every field has a value that the mapper knows. -/
structure SaneMapping (m : VersionedMapping) : Prop where
  version : m.version = buttonMappingVersion
  modifier : mappingButtonSupported m.modifierButton = true
  mode : m.rightStickMode ≤ rightStickModeAnalogNub
  l2 : Usable m.modifierButton m.l2Button
  r2 : Usable m.modifierButton m.r2Button
  rsUp : Usable m.modifierButton m.rsUpButton
  rsDown : Usable m.modifierButton m.rsDownButton
  rsLeft : Usable m.modifierButton m.rsLeftButton
  rsRight : Usable m.modifierButton m.rsRightButton
  l3 : Usable m.modifierButton m.l3Button
  r3 : Usable m.modifierButton m.r3Button

variable {m : VersionedMapping} {s : MappingStore} {modifier button fallback : UInt32}

/-- A button is usable once it was looked at, since its fallback is a button of the pad. -/
theorem usable_sanitizeMappingButton (hknown : mappingButtonSupported fallback = true) :
    Usable modifier (sanitizeMappingButton modifier button fallback) := by
  -- The fallback gives way to no button where it is the modifier itself.
  have hreplacement :
      Usable modifier (if modifier ≠ 0 ∧ fallback = modifier then 0 else fallback) := by
    split
    · rename_i hsame
      exact ⟨by decide, fun hne => Ne.symm hne⟩
    · rename_i hother
      exact ⟨hknown, fun hne heq => hother ⟨hne, heq⟩⟩
  rw [sanitizeMappingButton]
  generalize (if modifier ≠ 0 ∧ fallback = modifier then 0 else fallback) = replacement
    at hreplacement ⊢
  by_cases hbutton : mappingButtonSupported button = true
  · simp only [hbutton, Bool.not_true, Bool.false_eq_true, if_false]
    split
    · exact hreplacement
    · rename_i hother
      exact ⟨hbutton, fun hne heq => hother ⟨hne, heq⟩⟩
  · simp only [hbutton, Bool.not_false, if_true, ite_self]
    exact hreplacement

theorem sanitizeMappingButton_of_usable (h : Usable modifier button) :
    sanitizeMappingButton modifier button fallback = button := by
  rw [sanitizeMappingButton]
  simp only [h.known, Bool.not_true, Bool.false_eq_true, if_false]
  rw [if_neg]
  exact fun hno => h.other hno.1 hno.2

theorem sane_sanitizeMapping (m : VersionedMapping) : SaneMapping (sanitizeMapping m) where
  version := rfl
  modifier := by
    rw [sanitizeMapping]
    dsimp only
    split
    · decide
    · rename_i hknown
      simpa using hknown
  mode := by
    rw [sanitizeMapping]
    dsimp only
    split
    · decide
    · rename_i hmode
      exact UInt32.not_lt.mp hmode
  l2 := usable_sanitizeMappingButton (by decide)
  r2 := usable_sanitizeMappingButton (by decide)
  rsUp := usable_sanitizeMappingButton (by decide)
  rsDown := usable_sanitizeMappingButton (by decide)
  rsLeft := usable_sanitizeMappingButton (by decide)
  rsRight := usable_sanitizeMappingButton (by decide)
  l3 := usable_sanitizeMappingButton (by decide)
  r3 := usable_sanitizeMappingButton (by decide)

theorem sanitizeMapping_of_sane (h : SaneMapping m) : sanitizeMapping m = m := by
  have hmode : ¬ m.rightStickMode > rightStickModeAnalogNub := UInt32.not_lt.mpr h.mode
  have hmodifier : (!mappingButtonSupported m.modifierButton) = false := by simp [h.modifier]
  simp only [sanitizeMapping, hmodifier, Bool.false_eq_true, if_false, if_neg hmode]
  rw [sanitizeMappingButton_of_usable h.l2, sanitizeMappingButton_of_usable h.r2,
    sanitizeMappingButton_of_usable h.rsUp, sanitizeMappingButton_of_usable h.rsDown,
    sanitizeMappingButton_of_usable h.rsLeft, sanitizeMappingButton_of_usable h.rsRight,
    sanitizeMappingButton_of_usable h.l3, sanitizeMappingButton_of_usable h.r3, ← h.version]

theorem sane_setDefaultMapping : SaneMapping setDefaultMapping := by
  constructor <;> first | decide | exact ⟨by decide, by decide⟩

/-- A second pass changes nothing. -/
theorem sanitizeMapping_idem (m : VersionedMapping) :
    sanitizeMapping (sanitizeMapping m) = sanitizeMapping m :=
  sanitizeMapping_of_sane (sane_sanitizeMapping m)

theorem sanitizeMapping_version (m : VersionedMapping) (v : UInt32) :
    sanitizeMapping { m with version := v } = sanitizeMapping m :=
  rfl

/-! ## The dump and its reading -/

theorem readLe32_drop (p : Packet) (n off : ℕ) :
    readLe32 (p.drop n) off = readLe32 p (n + off) := by
  simp only [readLe32, byteAt, List.getD_eq_getElem?_getD, List.getElem?_drop, Nat.add_assoc]

theorem length_flatMap_putLe32 (ws : List UInt32) :
    (ws.flatMap putLe32).length = 4 * ws.length := by
  simp [List.length_flatMap, putLe32, Nat.mul_comm]

/-- Each word of a dump is read back at its place. -/
theorem readLe32_words (ws : List UInt32) (beyond : List UInt8) (i : ℕ) {w : UInt32}
    (hi : ws[i]? = some w) : readLe32 (ws.flatMap putLe32 ++ beyond) (4 * i) = w := by
  obtain ⟨hlt, hw⟩ := List.getElem?_eq_some_iff.mp hi
  have hsplit : ws = ws.take i ++ w :: ws.drop (i + 1) := by simp [← hw]
  have hfront : 4 * i = ((ws.take i).flatMap putLe32).length := by
    rw [length_flatMap_putLe32, List.length_take, Nat.min_eq_left hlt.le]
  have hdrop := readLe32_drop ((ws.take i).flatMap putLe32 ++
    (putLe32 w ++ ((ws.drop (i + 1)).flatMap putLe32 ++ beyond))) (4 * i) 0
  rw [hfront, List.drop_left, readLe32_putLe32, ← hfront] at hdrop
  rw [hsplit, List.flatMap_append, List.flatMap_cons, List.append_assoc, List.append_assoc]
  exact hdrop.symm

theorem length_bytes (m : VersionedMapping) : m.bytes.length = mappingSize := by
  rw [VersionedMapping.bytes, length_flatMap_putLe32]
  rfl

theorem ofBytes_bytes (m : VersionedMapping) (beyond : List UInt8) :
    VersionedMapping.ofBytes (m.bytes ++ beyond) = m := by
  have word := @readLe32_words m.words beyond
  rw [VersionedMapping.bytes, VersionedMapping.ofBytes, word 0 rfl, word 1 rfl, word 2 rfl,
    word 3 rfl, word 4 rfl, word 5 rfl, word 6 rfl, word 7 rfl, word 8 rfl, word 9 rfl,
    word 10 rfl]

/-- The first eight words, read as the first format. -/
theorem ofBytes_take (m : VersionedMapping) (beyond : List UInt8) :
    ButtonMappingV1.ofBytes (m.bytes.take mappingSizeV1 ++ beyond) =
      ⟨m.version, m.modifierButton, m.rightStickMode, m.l2Button, m.r2Button, m.rsUpButton,
        m.rsDownButton, m.rsLeftButton⟩ := by
  have hlength : ((m.words.take 8).flatMap putLe32).length = mappingSizeV1 :=
    length_flatMap_putLe32 _
  have hfront : m.bytes.take mappingSizeV1 = (m.words.take 8).flatMap putLe32 := by
    rw [VersionedMapping.bytes, ← List.take_append_drop 8 m.words, List.flatMap_append,
      List.take_left' hlength, List.take_append_drop]
  have word := @readLe32_words (m.words.take 8) beyond
  rw [hfront, ButtonMappingV1.ofBytes, word 0 rfl, word 1 rfl, word 2 rfl, word 3 rfl,
    word 4 rfl, word 5 rfl, word 6 rfl, word 7 rfl]

/-! ## What a file is worth -/

/-- A load that works, by the length of what is read. -/
theorem loadMapping_some (content : List UInt8) {n : ℕ}
    (hn : (content.take mappingSize).length = n) :
    loadMapping (some content) ⟨true, false⟩ = sanitizeMapping
      (if n = mappingSizeV1 then
        migrateLegacy (.ofBytes (content.take mappingSize ++ setDefaultMapping.bytes.drop n))
      else if n ≠ mappingSize then setDefaultMapping
      else .ofBytes (content.take mappingSize ++ setDefaultMapping.bytes.drop n)) := by
  subst hn
  simp only [loadMapping, Bool.not_true, Bool.false_eq_true, if_false, Int.natCast_inj, ne_eq]

/-- What a load gives of a mapping that was written up to some byte. -/
theorem loadMapping_written (h : SaneMapping m) (written : ℕ) :
    loadMapping (some (m.bytes.take written)) ⟨true, false⟩ = worthOfWrite m written := by
  have hlength : (m.bytes.take written).length = min written mappingSize := by
    rw [List.length_take, length_bytes]
  have hall : (m.bytes.take written).take mappingSize = m.bytes.take written := by
    rw [List.take_take, ← length_bytes m, min_comm, ← List.take_take, List.take_length]
  rw [loadMapping_some _ (by rw [hall, hlength]), hall, worthOfWrite]
  by_cases hwhole : mappingSize ≤ written
  · rw [Nat.min_eq_right hwhole, if_neg (by decide), if_neg (by decide), if_pos hwhole,
      List.take_of_length_le (by rw [length_bytes]; exact hwhole), ofBytes_bytes,
      sanitizeMapping_of_sane h]
  · rw [Nat.min_eq_left (by omega), if_neg hwhole]
    by_cases hV1 : written = mappingSizeV1
    · rw [if_pos hV1, if_pos hV1, hV1, ofBytes_take]
    · rw [if_neg hV1, if_neg hV1, if_pos (by omega), sanitizeMapping_of_sane sane_setDefaultMapping]

/-- What a load gives of a file that is worth something, and of one that cannot be read. -/
theorem loadMapping_eq (file : Option (List UInt8)) (a : MappingRead) :
    loadMapping file a =
      if a.opens ∧ ¬ a.fails then loadMapping file ⟨true, false⟩ else setDefaultMapping := by
  obtain ⟨opens, fails⟩ := a
  cases file with
  | none => simp [loadMapping]
  | some content =>
      cases opens
      · simp [loadMapping]
      · cases fails
        · simp
        · have hsane := sanitizeMapping_of_sane sane_setDefaultMapping
          simpa [loadMapping, mappingSizeV1, mappingSize] using hsane

theorem sane_loadMapping (file : Option (List UInt8)) (a : MappingRead) :
    SaneMapping (loadMapping file a) := by
  rw [loadMapping.eq_def]
  split
  · exact sane_setDefaultMapping
  · split
    · exact sane_setDefaultMapping
    · exact sane_sanitizeMapping _

/-! ## The store and its register -/

/-- A call of the store is the same call of its register. -/
theorem call_register (s : MappingStore) (c : MappingCall) :
    ((s.call c).1.register, (s.call c).2) = s.register.call c := by
  obtain ⟨mapping, loaded, file⟩ := s
  cases c with
  | get a =>
      cases loaded
      · have hload := loadMapping_eq file a
        simpa [MappingStore.call, buttonMappingGet, MappingStore.register,
          MappingRegister.call, MappingRegister.load] using hload
      · simp [MappingStore.call, buttonMappingGet, MappingStore.register, MappingRegister.call]
  | set m a =>
      have hwritten := loadMapping_written (sane_sanitizeMapping m) a.written
      simp only [MappingStore.call, buttonMappingSet, inputSaveMapping, sanitizeMapping_version,
        MappingRegister.call]
      cases hopens : a.opens
      · cases loaded <;> simp [MappingStore.register]
      · simp [MappingStore.register, hwritten]
  | init a =>
      have hload := loadMapping_eq file a
      simpa [MappingStore.call, MappingStore.register, MappingRegister.call,
        MappingRegister.load] using hload
  | restart => simp [MappingStore.call, MappingStore.register, MappingRegister.call]

theorem run_register (s : MappingStore) (calls : List MappingCall) :
    s.run calls = s.register.run calls := by
  induction calls generalizing s with
  | nil => rfl
  | cons c calls ih =>
      have hcall := call_register s c
      rw [MappingStore.run, MappingRegister.run, ← hcall]
      exact congrArg _ (ih _)

/-- What memory holds once something was loaded, or is held, is sane. -/
def MappingStore.Held (s : MappingStore) : Prop := s.loaded = true → SaneMapping s.mapping

theorem MappingStore.Held.call (h : s.Held) (c : MappingCall) :
    (s.call c).1.Held ∧ ∀ m, (s.call c).2 = some m → SaneMapping m := by
  have hnone : ∀ m, (none : Option VersionedMapping) = some m → SaneMapping m :=
    fun m hno => absurd hno.symm (Option.some_ne_none m)
  cases c with
  | get a =>
      have hmapping : SaneMapping (buttonMappingGet s a).2 := by
        rw [buttonMappingGet]
        by_cases hloaded : s.loaded = true
        · simpa [hloaded] using h hloaded
        · simpa [hloaded] using sane_loadMapping s.file a
      refine ⟨fun _ => hmapping, fun m hm => ?_⟩
      obtain rfl := Option.some.inj hm
      exact hmapping
  | set m a =>
      refine ⟨fun _ => ?_, hnone⟩
      rw [MappingStore.call, buttonMappingSet, inputSaveMapping]
      split
      · exact sane_sanitizeMapping _
      · exact sane_sanitizeMapping _
  | init a => exact ⟨fun _ => sane_loadMapping s.file a, hnone⟩
  | restart => exact ⟨Bool.noConfusion, hnone⟩

theorem MappingStore.Held.run (h : s.Held) (calls : List MappingCall) :
    ∀ m, some m ∈ s.run calls → SaneMapping m := by
  induction calls generalizing s with
  | nil => exact fun m hm => absurd hm List.not_mem_nil
  | cons c calls ih =>
      obtain ⟨hheld, hgiven⟩ := h.call c
      intro m hm
      rcases List.mem_cons.mp hm with hfirst | hlater
      · exact hgiven m hfirst.symm
      · exact ih hheld m hlater

/-- Whatever the file holds at first and however the calls go, the program reads its mapping
as from the register: what was set and written whole is what a later start loads. -/
theorem mapping_register (file : Option (List UInt8)) (calls : List MappingCall) :
    MappingStore.run ⟨zeroMapping, false, file⟩ calls =
        MappingRegister.run ⟨none, loadMapping file ⟨true, false⟩⟩ calls ∧
      ∀ m, some m ∈ MappingStore.run ⟨zeroMapping, false, file⟩ calls → SaneMapping m := by
  have hheld : MappingStore.Held ⟨zeroMapping, false, file⟩ := Bool.noConfusion
  exact ⟨run_register ⟨zeroMapping, false, file⟩ calls, hheld.run calls⟩

end MoonlightPsp.HostInput
