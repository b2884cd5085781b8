import MoonlightPsp.Config.IniText
import MoonlightPsp.GameList.Parser
import MoonlightPsp.Lib.CyclicCode
import MoonlightPsp.Upnp.Message

/-!
# The index of the icon cache

The art of an application is kept in a file, and an index says of which URL it is and on
which day it was fetched.  The index is written as a whole with every change.  What the
program answers is compared with a register that holds the entries and knows what the file
is worth; and art is called fresh only where it was fetched from such a URL within a week.
-/

namespace MoonlightPsp.GameList

open Rtsp Config CyclicCode
open MoonlightPsp.Upnp (scanUnsigned)

/-! ## The hash -/

/-- A round of the inner loop of `crc32_compute`. -/
def crc32Round (crc : UInt32) : UInt32 :=
  if crc &&& 1 ≠ 0 then crc >>> 1 ^^^ 0xEDB88320 else crc >>> 1

/-- A turn of the outer loop. -/
def crc32Byte (crc : UInt32) (byte : UInt8) : UInt32 :=
  Nat.fold 8 (fun _ _ crc => crc32Round crc) (crc ^^^ byte.toUInt32)

/-- `crc32_compute`. -/
def crc32Compute (data : List UInt8) : UInt32 := data.foldl crc32Byte 0xFFFFFFFF ^^^ 0xFFFFFFFF

/-! ## The file -/

/-- `CacheEntry`. -/
structure CacheEntry where
  appId : Int32
  urlHash : UInt32
  fetchDay : UInt32
  deriving DecidableEq

/-- `MAX_CACHE_ENTRIES`. -/
def maxCacheEntries : ℕ := 64

/-- A comma of the format of `sscanf`. -/
def scanComma : Text → Option Text
  | ',' :: rest => some rest
  | _ => none

/-- `sscanf(line, "%d,%u,%u", ...) == 3`, with the saturation of `strtol` and `strtoul`. -/
def parseEntry (line : Text) : Option CacheEntry :=
  (scanInt line).bind fun (id, rest) =>
    (scanComma rest).bind fun rest =>
      (scanUnsigned rest).bind fun (hash, rest) =>
        (scanComma rest).bind fun rest =>
          (scanUnsigned rest).map fun (day, _) =>
            ⟨Int32.ofIntClamp id, UInt32.ofNat hash, UInt32.ofNat day⟩

/-- What stands behind the end of the line. -/
def behindLine (line : Text) : Option Text := (line.dropWhile (· != '\n')).tail?

theorem behindLine_shorter {line rest : Text} (h : behindLine line = some rest) :
    rest.length < line.length := by
  have hdrop := List.length_dropWhile_le (· != '\n') line
  rw [behindLine] at h
  cases hline : line.dropWhile (· != '\n') with
  | nil =>
      rw [hline] at h
      exact absurd h.symm (Option.some_ne_none rest)
  | cons c cs =>
      rw [hline] at h hdrop
      obtain rfl := Option.some.inj h
      exact hdrop

/-- The loop of `load_index`, with the entries that it has room for. -/
def parseIndex (room : ℕ) (line : Text) : List CacheEntry :=
  if line = [] ∨ room = 0 then []
  else
    let found := parseEntry line
    found.toList ++
      match _h : behindLine line with
      | none => []
      | some rest => parseIndex (room - found.toList.length) rest
termination_by line.length
decreasing_by exact behindLine_shorter _h

/-- What the system answers when the index is read: whether it opens, and whether the read
fails. -/
structure IndexRead where
  opens : Bool
  fails : Bool

/-- What it answers when the index is written: whether it opens, and how much gets into it. -/
structure IndexWrite where
  opens : Bool
  written : ℕ

/-- The entries that `load_index` finds in a file; its buffer has 4096 bytes. -/
def readIndex (content : Text) : List CacheEntry :=
  parseIndex maxCacheEntries ((content.take 4095).takeWhile (· != nul))

/-- A line of `save_index`. -/
def CacheEntry.line (e : CacheEntry) : Text :=
  signed e.appId.toInt ++ ',' :: (decimal e.urlHash.toNat ++ ',' ::
    (decimal e.fetchDay.toNat ++ ['\n']))

/-- The loop of `save_index`. -/
def renderIndex (pos : ℕ) : List CacheEntry → Text
  | [] => []
  | e :: entries =>
      if pos < 4096 - 40 then e.line ++ renderIndex (pos + e.line.length) entries else []

/-! ## The cache -/

/-- `s_entries` and `s_count`, `s_loaded`, and the index file. -/
structure IconCache where
  entries : List CacheEntry
  loaded : Bool
  file : Option Text

/-- `get_current_day`, at a tick of the clock. -/
def getCurrentDay (tick : UInt64) : UInt32 := (tick / 86400000000).toUInt32

/-- `find_entry`. -/
def findEntry (entries : List CacheEntry) (appId : Int32) : Option ℕ :=
  entries.findIdx? fun e => e.appId = appId

/-- `load_index`. -/
def loadIndex (s : IconCache) (a : IndexRead) : IconCache :=
  if s.loaded then s
  else
    { s with
      loaded := true
      entries :=
        match s.file with
        | none => []
        | some content => if a.opens ∧ ¬ a.fails then readIndex content else [] }

/-- `save_index`. -/
def saveIndex (s : IconCache) (w : IndexWrite) : IconCache :=
  if w.opens then { s with file := some ((renderIndex 0 s.entries).take w.written) } else s

/-- What `icon_cache_needs_update` finds, once the index is loaded. -/
def needsUpdate (entries : List CacheEntry) (appId : Int32) (url : List UInt8) (day : UInt32) :
    Bool :=
  if url = [] then false
  else
    match (findEntry entries appId).bind (entries[·]?) with
    | none => true
    | some e =>
        -- `ICON_CACHE_MAX_AGE_DAYS`
        e.urlHash != crc32Compute url || decide (day > e.fetchDay + 7)

/-- `icon_cache_needs_update`. -/
def iconCacheNeedsUpdate (s : IconCache) (appId : Int32) (url : List UInt8) (tick : UInt64)
    (a : IndexRead) : IconCache × Bool :=
  let s := loadIndex s a
  (s, needsUpdate s.entries appId url (getCurrentDay tick))

/-- The entries of `icon_cache_record`. -/
def recordEntry (entries : List CacheEntry) (e : CacheEntry) : List CacheEntry :=
  match findEntry entries e.appId with
  | some idx => entries.set idx e
  | none => if entries.length < maxCacheEntries then entries ++ [e] else entries

/-- `icon_cache_record`. -/
def iconCacheRecord (s : IconCache) (appId : Int32) (url : List UInt8) (tick : UInt64)
    (a : IndexRead) (w : IndexWrite) : IconCache :=
  let s := loadIndex s a
  saveIndex
    { s with
      entries := recordEntry s.entries ⟨appId, crc32Compute url, getCurrentDay tick⟩ } w

/-- `icon_cache_clear_all`, with the applications whose art is removed. -/
def iconCacheClearAll (s : IconCache) (a : IndexRead) (removed : Bool) :
    IconCache × List Int32 :=
  let s := loadIndex s a
  ({ s with entries := [], file := if removed then none else s.file },
    s.entries.map CacheEntry.appId)

/-- What happens to the cache; at a restart it is not loaded. -/
inductive IconCall where
  | needsUpdate (appId : Int32) (url : List UInt8) (tick : UInt64) (a : IndexRead)
  | record (appId : Int32) (url : List UInt8) (tick : UInt64) (a : IndexRead) (w : IndexWrite)
  | clearAll (a : IndexRead) (removed : Bool)
  | restart

/-- One call, with its answer. -/
def IconCache.call (s : IconCache) : IconCall → IconCache × Option Bool
  | .needsUpdate appId url tick a =>
      ((iconCacheNeedsUpdate s appId url tick a).1,
        some (iconCacheNeedsUpdate s appId url tick a).2)
  | .record appId url tick a w => (iconCacheRecord s appId url tick a w, none)
  | .clearAll a removed => ((iconCacheClearAll s a removed).1, none)
  | .restart => ({ s with entries := [], loaded := false }, none)

/-- The state behind some calls. -/
def IconCache.after (s : IconCache) (calls : List IconCall) : IconCache :=
  calls.foldl (fun s c => (s.call c).1) s

/-- The answers of the calls. -/
def IconCache.answers (s : IconCache) : List IconCall → List (Option Bool)
  | [] => []
  | c :: calls => (s.call c).2 :: (s.call c).1.answers calls

/-! ## The register -/

/-- The entries of an index that was written up to some character. -/
def worthOfIndex (entries : List CacheEntry) (written : ℕ) : List CacheEntry :=
  if (renderIndex 0 entries).length ≤ written then entries
  else readIndex ((renderIndex 0 entries).take written)

/-- The entries in memory, if they are loaded, and those that a read of the file gives. -/
structure IconRegister where
  held : Option (List CacheEntry)
  kept : List CacheEntry

/-- What a load gives. -/
def IconRegister.load (r : IconRegister) (a : IndexRead) : List CacheEntry :=
  r.held.getD (if a.opens ∧ ¬ a.fails then r.kept else [])

/-- One call of the register. -/
def IconRegister.call (r : IconRegister) : IconCall → IconRegister × Option Bool
  | .needsUpdate appId url tick a =>
      ({ r with held := some (r.load a) },
        some (GameList.needsUpdate (r.load a) appId url (getCurrentDay tick)))
  | .record appId url tick a w =>
      let entries := recordEntry (r.load a) ⟨appId, crc32Compute url, getCurrentDay tick⟩
      (⟨some entries, if w.opens then worthOfIndex entries w.written else r.kept⟩, none)
  | .clearAll _ removed => (⟨some [], if removed then [] else r.kept⟩, none)
  | .restart => ({ r with held := none }, none)

def IconRegister.answers (r : IconRegister) : List IconCall → List (Option Bool)
  | [] => []
  | c :: calls => (r.call c).2 :: (r.call c).1.answers calls

/-- The register of a cache. -/
def IconCache.register (s : IconCache) : IconRegister where
  held := if s.loaded then some s.entries else none
  kept := (s.file.map readIndex).getD []

end MoonlightPsp.GameList
