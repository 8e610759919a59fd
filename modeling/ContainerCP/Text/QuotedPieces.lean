import ContainerCP.Text.Json
import ContainerCP.Text.Streams

/-! Search in a text that its quotes cut into pieces, for a name between two quotes and what
is to follow it. -/
namespace ContainerCP.Json

/-- A text with a quote in front of every piece but the first one. -/
def quoted (first : Bytes) (pieces : List Bytes) : Bytes := first ++ pieces.flatMap (quote :: ·)

/-- The text behind the first piece that is the name, where the text behind it starts as it
is to. -/
def searchPieces (name tail : Bytes) : List Bytes → Option Bytes
  | [] => none
  | [_] => none
  | piece :: next :: rest =>
      if piece = name ∧ tail.isPrefixOf (quoted next rest) then some ((quoted next rest).drop tail.length)
      else searchPieces name tail (next :: rest)

variable {name tail : Bytes}

theorem quoted_cons (first piece : Bytes) (rest : List Bytes) : quoted first (piece :: rest) = first ++ quote :: quoted piece rest := by
  simp [quoted]

theorem quoted_nil (first : Bytes) : quoted first [] = first := by
  simp [quoted]

theorem isPrefix_quoted (hName : quote ∉ name) {piece next : Bytes} (hPiece : quote ∉ piece) (rest : List Bytes) :
    name ++ quote :: tail <+: quoted piece (next :: rest) ↔ piece = name ∧ tail <+: quoted next rest := by
  rw [quoted_cons]
  constructor
  · rintro ⟨behind, hText⟩
    have hCut : cutAt quote (piece ++ quote :: quoted next rest) = some (piece, quoted next rest) := cutAt_eq_some.mpr ⟨rfl, hPiece⟩
    rw [← hText, List.append_assoc, List.cons_append, cutAt_eq_some.mpr ⟨rfl, hName⟩] at hCut
    obtain ⟨hEq, hTail⟩ := Prod.mk.inj (Option.some.inj hCut)
    exact ⟨hEq.symm, behind, hTail⟩
  · rintro ⟨rfl, behind, hTail⟩
    refine ⟨behind, ?_⟩
    rw [List.append_assoc, List.cons_append, hTail]

/-- The search goes from piece to piece. -/
theorem cutAtText_quoted (hName : quote ∉ name) {first : Bytes} {pieces : List Bytes} (hFirst : quote ∉ first)
    (hPieces : ∀ piece ∈ pieces, quote ∉ piece) :
    (cutAtText (quote :: (name ++ quote :: tail)) (quoted first pieces)).map Prod.snd = searchPieces name tail pieces := by
  induction pieces generalizing first with
  | nil =>
      rw [quoted_nil, cutAtText_eq_none List.mem_cons_self hFirst]
      rfl
  | cons piece rest ih =>
      have hPiece : quote ∉ piece := hPieces piece List.mem_cons_self
      have hRest := ih hPiece fun other hOther => hPieces other (List.mem_cons_of_mem _ hOther)
      have hDrop : (cutAtText (quote :: (name ++ quote :: tail)) (quoted first (piece :: rest))).map Prod.snd =
          (cutAtText (quote :: (name ++ quote :: tail)) (quote :: quoted piece rest)).map Prod.snd := by
        rw [quoted_cons, cutAtText_append hFirst, Option.map_map]
        rfl
      rw [hDrop, cutAtText]
      by_cases hPrefix : (quote :: (name ++ quote :: tail)).isPrefixOf (quote :: quoted piece rest) = true
      · rw [if_pos hPrefix]
        have hName' := (List.cons_prefix_cons.mp (List.isPrefixOf_iff_prefix.mp hPrefix)).2
        cases rest with
        | nil =>
            have hQuote : quote ∈ quoted piece [] := hName'.subset (by simp)
            rw [quoted_nil] at hQuote
            exact absurd hQuote hPiece
        | cons next rest =>
            obtain ⟨rfl, hTail⟩ := (isPrefix_quoted hName hPiece rest).mp hName'
            rw [searchPieces, if_pos ⟨rfl, List.isPrefixOf_iff_prefix.mpr hTail⟩, Option.map_some, quoted_cons]
            simp [List.drop_append]
      · rw [if_neg hPrefix, Option.map_map]
        have hSkip : searchPieces name tail (piece :: rest) = searchPieces name tail rest := by
          cases rest with
          | nil => rfl
          | cons next rest =>
              rw [searchPieces, if_neg]
              rintro ⟨hEq, hTail⟩
              refine hPrefix (List.isPrefixOf_iff_prefix.mpr (List.cons_prefix_cons.mpr ⟨rfl, ?_⟩))
              exact (isPrefix_quoted hName hPiece rest).mpr ⟨hEq, List.isPrefixOf_iff_prefix.mp hTail⟩
        rw [hSkip, ← hRest]
        rfl

theorem searchPieces_skip {piece next : Bytes} {rest : List Bytes} (h : ¬(piece = name ∧ tail.isPrefixOf (quoted next rest) = true)) :
    searchPieces name tail (piece :: next :: rest) = searchPieces name tail (next :: rest) := if_neg h

theorem searchPieces_found {next behind : Bytes} {rest : List Bytes} (h : quoted next rest = tail ++ behind) :
    searchPieces name tail (name :: next :: rest) = some behind := by
  have hTail : tail.isPrefixOf (quoted next rest) = true := List.isPrefixOf_iff_prefix.mpr ⟨behind, h.symm⟩
  rw [searchPieces, if_pos ⟨rfl, hTail⟩, h, List.drop_left]

end ContainerCP.Json
