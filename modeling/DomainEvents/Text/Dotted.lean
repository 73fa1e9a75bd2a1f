/-!
# Dotted text

A dotted text is read as the list of its segments, the pieces between the dots; the empty text has
one empty segment.
-/

namespace DomainEvents.Text

/-- The segments of a text: what stands before, between and after its dots. There is always at
least one. -/
def segments (cs : List Char) : List (List Char) := cs.splitOn '.'

theorem segments_ne_nil (cs : List Char) : segments cs ≠ [] := List.splitOn_ne_nil '.' cs

/-- A dot ends a segment, and any other character belongs to the one after it. -/
theorem segments_cons (c : Char) (rest : List Char) :
    segments (c :: rest) =
      if c = '.' then [] :: segments rest else (segments rest).modifyHead (List.cons c) := by
  rw [segments, List.splitOn_cons_eq_if_modifyHead]
  simp only [beq_iff_eq, segments]

end DomainEvents.Text
