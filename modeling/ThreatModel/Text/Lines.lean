/-!
# Lines

`lines` cuts a text at its line ends `\r\n`, `\r` and `\n`, and at nothing else: a form feed or U+2028 stays inside its line.
A line end closes a line; what stands after the last one is a line only if it is not empty.

* `lines_newline`, `lines_return_newline`: a line end closes a line.
* `lines_cons`: any other character belongs to the line it opens.
* `newline_not_mem_of_mem_lines`: no line has a newline in it.
-/

namespace ThreatModel.Text

/-- The lines of a text, without their line ends. -/
def lines : List Char → List (List Char)
  | []               => []
  | '\r' :: '\n' :: s => [] :: lines s
  | '\r' :: s         => [] :: lines s
  | '\n' :: s         => [] :: lines s
  | c :: s            =>
    match lines s with
    | []      => [[c]]
    | l :: ls => (c :: l) :: ls

/-- The text with each of its line ends as `\n`. -/
def unifyLineEnds : List Char → List Char
  | []               => []
  | '\r' :: '\n' :: s => '\n' :: unifyLineEnds s
  | '\r' :: s         => '\n' :: unifyLineEnds s
  | c :: s            => c :: unifyLineEnds s

@[simp] theorem lines_nil : lines [] = [] := rfl

theorem lines_newline (s : List Char) : lines ('\n' :: s) = [] :: lines s := by
  simp [lines]

theorem lines_return_newline (s : List Char) : lines ('\r' :: '\n' :: s) = [] :: lines s := by
  simp [lines]

/-- Any other character opens or extends the first line. -/
theorem lines_cons {c : Char} (hr : c ≠ '\r') (hn : c ≠ '\n') (s : List Char) :
    lines (c :: s) = ((lines s).headD [] |> (c :: ·)) :: (lines s).tail := by
  rw [lines.eq_def]
  split <;> simp_all
  split <;> simp_all

/-- No line has a newline in it. -/
theorem newline_not_mem_of_mem_lines {s l : List Char} (h : l ∈ lines s) : '\n' ∉ l := by
  induction s using lines.induct generalizing l with
  | case1 => cases h
  | case2 s ih | case3 s hs ih | case4 s ih =>
    simp only [lines, List.mem_cons] at h
    rcases h with rfl | h
    · exact List.not_mem_nil
    · exact ih h
  | case5 c s _ hr hn hs ih =>
    rw [lines_cons hr hn, hs] at h
    obtain rfl := List.mem_singleton.mp h
    exact fun hm => hn (List.mem_singleton.mp hm).symm
  | case6 c s _ hr hn first rest hs ih =>
    rw [lines_cons hr hn, hs] at h
    rw [hs] at ih
    rcases List.mem_cons.mp h with rfl | h
    · exact fun hm => (List.mem_cons.mp hm).elim (fun e => hn e.symm) (ih List.mem_cons_self)
    · exact ih (List.mem_cons_of_mem _ h)

end ThreatModel.Text
