/-
# Descent.Text.Lines — where a text breaks into lines

Besides the line feed, the carriage return and both together, the vertical tab, the
form feed, the three information separators of files, groups and records, the next
line control and the two separators of lines and paragraphs end a line.  A text
that ends with a line end has no line behind it.
-/
namespace Descent.Text
set_option autoImplicit false

def isLineEnd (c : Char) : Bool :=
  let n := c.toNat
  (0x0A ≤ n && n ≤ 0x0D) || (0x1C ≤ n && n ≤ 0x1E) || n == 0x85 || n == 0x2028 || n == 0x2029

/-- The lines of a text, of which the characters before it are already at hand, last one first. -/
def linesAfter : (started : List Char) → List Char → List String
  | [], [] => []
  | started, [] => [String.ofList started.reverse]
  | started, '\r' :: '\n' :: rest => String.ofList started.reverse :: linesAfter [] rest
  | started, c :: rest =>
    if isLineEnd c then String.ofList started.reverse :: linesAfter [] rest
    else linesAfter (c :: started) rest

/-- The lines of a text. -/
def lines (s : String) : List String := linesAfter [] s.toList

/-- A line has no line end in it. -/
theorem not_isLineEnd_of_mem_lines {s line : String} (member : line ∈ lines s) {c : Char}
    (inLine : c ∈ line.toList) : isLineEnd c = false := by
  have go : ∀ (started rest : List Char), (∀ c ∈ started, isLineEnd c = false) →
      ∀ line ∈ linesAfter started rest, ∀ c ∈ line.toList, isLineEnd c = false := by
    intro started rest
    fun_induction linesAfter started rest with
    | case1 => simp
    | case2 started _ => intro clean; simpa using clean
    | case3 started rest ih =>
      intro clean line member
      rcases List.mem_cons.1 member with rfl | member
      · simpa using clean
      · exact ih (by simp) line member
    | case4 started c rest _ _ ih =>
      intro clean line member
      rcases List.mem_cons.1 member with rfl | member
      · simpa using clean
      · exact ih (by simp) line member
    | case5 started c rest _ isEnd ih =>
      intro clean
      exact ih (by simpa [isEnd] using clean)
  exact go [] s.toList (by simp) line member c inLine

example : lines "a\r\nb\rc\n" = ["a", "b", "c"] := by decide

example : lines "\n\n" = ["", ""] ∧ lines "" = [] := by decide

end Descent.Text
