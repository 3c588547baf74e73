/-! Lines of a text: segments that keep their line feed, and lines without their terminator. -/

namespace MillGateway.Text

/-- The text cut after every line feed. Each segment but perhaps the last ends in one, and
together they are the text. -/
def segments : List Char → List (List Char)
  | [] => []
  | c :: r =>
    if c = '\n' then [c] :: segments r
    else match segments r with
      | [] => [[c]]
      | s :: ss => (c :: s) :: ss

/-- A segment without its terminator, a line feed with at most one carriage return before it.
A last segment without line feed is a line as it stands. -/
def dropTerminator (s : List Char) : List Char :=
  match s.reverse with
  | '\n' :: '\r' :: r => r.reverse
  | '\n' :: r => r.reverse
  | _ => s

def lines (s : List Char) : List (List Char) :=
  (segments s).map dropTerminator

theorem flatten_segments (s : List Char) : (segments s).flatten = s := by
  induction s with
  | nil => rfl
  | cons c r ih =>
    by_cases h : c = '\n'
    · simp [segments, h, ih]
    · cases hs : segments r with
      | nil => simp_all [segments]
      | cons t ts => rw [hs] at ih; simp_all [segments]

end MillGateway.Text
