namespace ComponentLang.Text

/-- Splits what is left of a text. `line` holds the characters of the
unfinished line and `earlier` the finished lines, each latest first. -/
def linesFrom (earlier : List (List Char)) (line : List Char) :
    List Char → List (List Char)
  | [] => (line.reverse :: earlier).reverse
  | '\r' :: '\n' :: rest => linesFrom (line.reverse :: earlier) [] rest
  | '\r' :: rest => linesFrom (line.reverse :: earlier) [] rest
  | '\n' :: rest => linesFrom (line.reverse :: earlier) [] rest
  | char :: rest => linesFrom earlier (char :: line) rest

/-- The lines of a text, without their terminators. -/
def lines (text : List Char) : List (List Char) :=
  linesFrom [] [] text

def splitLines (text : String) : List String :=
  (lines text.toList).map String.ofList

theorem linesFrom_append (earlier before : List (List Char))
    (line text : List Char) :
    linesFrom (earlier ++ before) line text =
      before.reverse ++ linesFrom earlier line text := by
  fun_induction linesFrom earlier line text with
  | case1 earlier line => simp [linesFrom]
  | case2 earlier line rest induction => simpa [linesFrom] using induction
  | case3 earlier line rest notFeed induction =>
      simpa [linesFrom.eq_3 _ line rest notFeed] using induction
  | case4 earlier line rest induction => simpa [linesFrom] using induction
  | case5 earlier line char rest notPair notReturn notFeed induction =>
      simpa [linesFrom.eq_5 _ line char rest notPair notReturn notFeed]
        using induction

theorem linesFrom_eq_append (earlier : List (List Char))
    (line text : List Char) :
    linesFrom earlier line text = earlier.reverse ++ linesFrom [] line text := by
  simpa using linesFrom_append [] earlier line text

theorem lines_ne_nil (text : List Char) : lines text ≠ [] := by
  have nonempty : ∀ earlier line, linesFrom earlier line text ≠ [] := by
    intro earlier line
    fun_induction linesFrom earlier line text <;> simp_all
  exact nonempty [] []

end ComponentLang.Text
