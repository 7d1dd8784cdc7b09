/-!
# Fragments on one line

A captured fragment of a declaration may run over several lines. It is put
on one line by shortening its runs of spaces and deleting tabs and line
ends, with nothing written in their place.
-/

namespace HeaderExports.Text

/-- Write every two spaces as one, pairing them from the left within a run. -/
def halveSpaces : List Char → List Char
  | ' ' :: ' ' :: rest => ' ' :: halveSpaces rest
  | c :: rest => c :: halveSpaces rest
  | [] => []

/-- Halving spaces only deletes characters. -/
theorem halveSpaces_sublist (text : List Char) : (halveSpaces text).Sublist text := by
  fun_induction halveSpaces text with
  | case1 rest ih => exact (ih.cons ' ').cons_cons ' '
  | case2 c rest hc ih => exact ih.cons_cons c
  | case3 => exact List.Sublist.refl []

/-- Whether a character is deleted when a fragment is put on one line. -/
def isLineBreaking (c : Char) : Bool := c == '\t' || c == '\r' || c == '\n'

/-- Put a fragment on one line. Spaces are paired before tabs and line ends
go, so a deleted character keeps the spaces around it apart. -/
def oneLine (text : List Char) : List Char := (halveSpaces text).filter (! isLineBreaking ·)

/-- A fragment on one line holds no tab and no line end. -/
theorem isLineBreaking_of_mem_oneLine {c : Char} {text : List Char} (member : c ∈ oneLine text) :
    isLineBreaking c = false := by
  simpa using (List.mem_filter.mp member).2

end HeaderExports.Text
