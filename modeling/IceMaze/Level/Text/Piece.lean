import IceMaze.Text.Blank
import IceMaze.Text.Split

/-!
The pieces of a level text: map bodies, `alt` marks and directive lines.

Blank space and comment lines between the pieces are dropped. A comment starts with `#`; inside a
map there are none.
-/

namespace IceMaze.LevelText

open Text

inductive Piece where
  /-- The text between `map` and `;`. -/
  | map (body : List Char)
  | alt
  /-- A line that names a section and its cells. -/
  | directive (line : List Char)
  /-- A `map` that no `;` ends. -/
  | unterminated
  deriving DecidableEq

def isLetter (c : Char) : Bool := ('a' ≤ c && c ≤ 'z') || ('A' ≤ c && c ≤ 'Z')

/-- The letters at the start of a piece. -/
def nameOf (s : List Char) : List Char := s.takeWhile isLetter

def afterName (s : List Char) : List Char := s.dropWhile isLetter

theorem length_afterName (s : List Char) : (nameOf s).length + (afterName s).length = s.length := by
  rw [← List.length_append, nameOf, afterName, List.takeWhile_append_dropWhile]

namespace Piece

def scan (s : List Char) : List Piece :=
  match _h : trimStart s with
  | [] => []
  | c :: rest =>
    if c = '#' then scan (after '\n' rest)
    else if nameOf (c :: rest) = ['m', 'a', 'p'] then
      match _hc : cut? ';' (afterName (c :: rest)) with
      | some (body, tail) => .map body :: scan tail
      | none => [.unterminated]
    else if _ha : nameOf (c :: rest) = ['a', 'l', 't'] then
      .alt :: scan (afterName (c :: rest))
    else
      .directive (trim (before '\n' (c :: rest))) :: scan (after '\n' (c :: rest))
termination_by s.length
decreasing_by
  all_goals
    have hs := length_trimStart_le s
    rw [_h, List.length_cons] at hs
    have hn := length_afterName (c :: rest)
    rw [List.length_cons] at hn
  · have := length_after_le '\n' rest
    omega
  · have := length_cut?_lt _hc
    omega
  · rw [_ha, List.length_cons] at hn
    omega
  · have := length_after_lt '\n' c rest
    rw [List.length_cons] at this
    omega

end Piece
end IceMaze.LevelText
