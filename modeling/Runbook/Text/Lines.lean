/-!
Lines of a text. A line ends at a line feed, a carriage return or both together, and at the rarer
characters that end a line.
-/
namespace Runbook.Text

/-- The characters that end a line. -/
def endsLine (c : Char) : Bool :=
  let n := c.toNat
  (0x0a ≤ n && n ≤ 0x0d) || (0x1c ≤ n && n ≤ 0x1e) || n == 0x85 || n == 0x2028 || n == 0x2029

/-- The lines of a text without their ends; `begun` holds the characters of the line so far, the
last one first. Nothing after the last end is no line. -/
def linesFrom : List Char → List Char → List (List Char)
  | [], [] => []
  | begun, [] => [begun.reverse]
  | begun, '\r' :: '\n' :: rest => begun.reverse :: linesFrom [] rest
  | begun, c :: rest =>
    if endsLine c then begun.reverse :: linesFrom [] rest else linesFrom (c :: begun) rest

/-- The lines of a text. -/
def lines (s : String) : List String := (linesFrom [] s.toList).map String.ofList

/-- No line holds a character that ends lines. -/
theorem not_endsLine_of_mem_linesFrom {begun cs line : List Char}
    (hb : ∀ c ∈ begun, endsLine c = false) (h : line ∈ linesFrom begun cs) :
    ∀ c ∈ line, endsLine c = false := by
  fun_induction linesFrom begun cs with
  | case1 => simp at h
  | case2 begun => simp_all
  | case3 begun rest ih =>
    rcases List.mem_cons.1 h with rfl | h
    · simpa using hb
    · exact ih (by simp) h
  | case4 begun c rest _ he ih =>
    rcases List.mem_cons.1 h with rfl | h
    · simpa using hb
    · exact ih (by simp) h
  | case5 begun c rest _ he ih =>
    exact ih (by simp_all) h

end Runbook.Text
