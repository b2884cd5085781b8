import MoonlightPsp.Lib.PatternSearch

/-!
# The body of a response in pieces

`https_launch_get_binary` reads a response piece by piece.  It keeps the pieces until the
empty line behind the header came, and from there on copies the body into the buffer of its
caller.
-/

namespace MoonlightPsp.Https

open PatternSearch

/-! ## The model -/

/-- The empty line that ends a header. -/
def headerEnd : List UInt8 := [13, 10, 13, 10]

/-- `sizeof(header_buf)`. -/
def headerBufSize : ℕ := 4096

/-- The locals of the loop: `header_buf` up to `header_len`, `header_done`, and the part of
`resp` that was written. -/
structure BodyReader where
  header : List UInt8
  headerDone : Bool
  body : List UInt8

def BodyReader.start : BodyReader := ⟨[], false, []⟩

/-- One piece; the header may become too large. -/
def BodyReader.take (respSize : ℕ) (s : BodyReader) (piece : List UInt8) : Option BodyReader :=
  if s.headerDone then
    some { s with body := s.body ++ piece.take (respSize - s.body.length) }
  else if s.header.length + piece.length > headerBufSize - 1 then none
  else
    let searchStart := if 3 ≤ s.header.length then s.header.length - 3 else 0
    let header := s.header ++ piece
    match findFrom headerEnd header searchStart with
    | none => some { s with header }
    | some i =>
        some ⟨header, true,
          s.body ++ (header.drop (i + 4)).take (respSize - s.body.length)⟩

/-- The loop over the pieces that `mbedtls_ssl_read` gives until it ends. -/
def BodyReader.read (respSize : ℕ) (s : BodyReader) : List (List UInt8) → Option BodyReader
  | [] => some s
  | piece :: rest => do
      let s ← s.take respSize piece
      if s.headerDone ∧ respSize ≤ s.body.length then some s else s.read respSize rest

/-- What is in `resp` behind the loop. -/
def BodyReader.result (respSize : ℕ) (s : BodyReader) : List UInt8 :=
  if s.headerDone then s.body else s.header.take respSize

/-- The reading part of `https_launch_get_binary`: what is in `resp` when the length of it
is returned, or nothing where -1 is. -/
def httpsBinaryBody (respSize : ℕ) (pieces : List (List UInt8)) : Option (List UInt8) :=
  (BodyReader.start.read respSize pieces).map (BodyReader.result respSize)

/-! ## What it is for -/

/-- The body of a whole response; a response without an empty line is all body. -/
def bodyOf (response : List UInt8) : List UInt8 :=
  match first headerEnd response with
  | none => response
  | some i => response.drop (i + headerEnd.length)

/-- The pieces up to the one in which the header ends, behind `seen`. -/
def headerPieces (seen : List UInt8) : List (List UInt8) → List UInt8
  | [] => seen
  | piece :: rest =>
      if (first headerEnd (seen ++ piece)).isSome then seen ++ piece
      else headerPieces (seen ++ piece) rest

/-! ## The loop -/

variable {respSize : ℕ} {s : BodyReader} {seen : List UInt8} {pieces : List (List UInt8)}

theorem headerEnd_ne_nil : headerEnd ≠ [] := by decide

theorem length_le_headerPieces (seen : List UInt8) (pieces : List (List UInt8)) :
    seen.length ≤ (headerPieces seen pieces).length := by
  induction pieces generalizing seen with
  | nil => exact le_rfl
  | cons piece pieces ih =>
      have hgrow : seen.length ≤ (seen ++ piece).length := by simp
      rw [headerPieces]
      split
      · exact hgrow
      · exact hgrow.trans (ih (seen ++ piece))

/-- Behind the header the loop copies what fits. -/
theorem read_done (respSize : ℕ) (hdone : s.headerDone = true) (pieces : List (List UInt8)) :
    ∃ t, s.read respSize pieces = some t ∧ t.headerDone = true ∧
      t.body = s.body ++ pieces.flatten.take (respSize - s.body.length) := by
  induction pieces generalizing s with
  | nil => exact ⟨s, rfl, hdone, by simp⟩
  | cons piece pieces ih =>
      have htake : s.take respSize piece =
          some { s with body := s.body ++ piece.take (respSize - s.body.length) } := by
        rw [BodyReader.take, if_pos hdone]
      rw [BodyReader.read, htake, Option.bind_eq_bind, Option.bind_some]
      split
      · rename_i hfull
        refine ⟨_, rfl, hdone, ?_⟩
        have hlen := hfull.2
        dsimp only at hlen ⊢
        rw [List.length_append, List.length_take] at hlen
        rw [List.flatten_cons, List.take_append]
        have hrest : respSize - s.body.length - piece.length = 0 := by omega
        rw [hrest, List.take_zero, List.append_nil]
      · obtain ⟨t, ht, hlast, hbody⟩ := ih (s := { s with
          body := s.body ++ piece.take (respSize - s.body.length) }) hdone
        refine ⟨t, ht, hlast, ?_⟩
        rw [hbody, List.flatten_cons, List.take_append, List.append_assoc]
        congr 2
        rw [List.length_append, List.length_take]
        by_cases hfits : respSize - s.body.length ≤ piece.length
        · rw [Nat.min_eq_left hfits]
          congr 1
          omega
        · rw [Nat.min_eq_right (not_le.mp hfits).le]
          congr 1
          omega

/-- A piece that does not end the header, or the one that does. -/
theorem take_header (hnone : first headerEnd seen = none) (piece : List UInt8) :
    BodyReader.take respSize ⟨seen, false, []⟩ piece =
      if (seen ++ piece).length > headerBufSize - 1 then none
      else match first headerEnd (seen ++ piece) with
        | none => some ⟨seen ++ piece, false, []⟩
        | some i => some ⟨seen ++ piece, true,
            ((seen ++ piece).drop (i + headerEnd.length)).take respSize⟩ := by
  have hstart : (if 3 ≤ seen.length then seen.length - 3 else 0) =
      seen.length - (headerEnd.length - 1) := by
    simp only [headerEnd, List.length_cons, List.length_nil]
    split
    · rfl
    · omega
  rw [BodyReader.take, if_neg Bool.false_ne_true]
  dsimp only
  rw [hstart, findFrom_append headerEnd_ne_nil hnone, List.length_append]
  rfl

theorem bodyOf_append {i : ℕ} (h : first headerEnd seen = some i) (more : List UInt8) :
    bodyOf (seen ++ more) = seen.drop (i + headerEnd.length) ++ more := by
  have hocc := ((first_eq_some headerEnd_ne_nil).mp h).1
  have hfits := hocc.fits (hocc.lt headerEnd_ne_nil).le
  rw [bodyOf, first_append headerEnd_ne_nil h]
  exact List.drop_append_of_le_length hfits

theorem read_header (hnone : first headerEnd seen = none)
    (hseen : seen.length ≤ headerBufSize - 1) (pieces : List (List UInt8)) :
    (BodyReader.read respSize ⟨seen, false, []⟩ pieces).map (BodyReader.result respSize) =
      if (headerPieces seen pieces).length ≤ headerBufSize - 1 then
        some ((bodyOf (seen ++ pieces.flatten)).take respSize)
      else none := by
  induction pieces generalizing seen with
  | nil =>
      rw [headerPieces, if_pos hseen, List.flatten_nil, List.append_nil, bodyOf, hnone]
      rfl
  | cons piece pieces ih =>
      rw [BodyReader.read, take_header hnone, headerPieces, List.flatten_cons,
        ← List.append_assoc]
      by_cases hlarge : (seen ++ piece).length > headerBufSize - 1
      · have hmore := length_le_headerPieces (seen ++ piece) pieces
        rw [if_pos hlarge, if_neg]
        · rfl
        · split
          · exact not_le.mpr hlarge
          · exact not_le.mpr (hlarge.trans_le hmore)
      · have hfits := not_lt.mp hlarge
        rw [if_neg hlarge]
        cases hfirst : first headerEnd (seen ++ piece) with
        | none =>
            simp only [Option.isSome_none, Bool.false_eq_true, if_false, Option.bind_eq_bind,
              Option.bind_some, false_and]
            exact ih hfirst hfits
        | some i =>
            simp only [Option.isSome_some, if_true, Option.bind_eq_bind, Option.bind_some,
              true_and]
            rw [if_pos hfits, bodyOf_append hfirst]
            generalize (seen ++ piece).drop (i + headerEnd.length) = begun
            split
            · rename_i hfull
              rw [List.length_take] at hfull
              rw [Option.map_some, BodyReader.result, if_pos rfl,
                List.take_append_of_le_length (by omega)]
            · obtain ⟨t, ht, hdone, hbody⟩ := read_done respSize
                (s := ⟨seen ++ piece, true, begun.take respSize⟩) rfl pieces
              rw [ht, Option.map_some, BodyReader.result, if_pos hdone, hbody, List.take_append,
                List.length_take]
              congr 3
              omega

/-- However a response comes in pieces, the caller gets the beginning of its body; only
where the pieces up to the end of the header are too long for the buffer, it gets nothing. -/
theorem httpsBinaryBody_eq (respSize : ℕ) (pieces : List (List UInt8)) :
    httpsBinaryBody respSize pieces =
      if (headerPieces [] pieces).length ≤ headerBufSize - 1 then
        some ((bodyOf pieces.flatten).take respSize)
      else none :=
  read_header rfl (Nat.zero_le _) pieces

end MoonlightPsp.Https
