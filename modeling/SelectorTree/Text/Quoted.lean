import SelectorTree.Text.Escape

/-!
# Quoted strings

The body of a string runs to the quote that opened it.  A backslash before a
line feed continues the line, and any other escape stands for its character.
Stylesheets also end a string at a bare line feed and at the end of the input;
selectors take line feeds as they are and refuse a string that never closes.
-/

namespace SelectorTree.Text

def isQuote (c : Char) : Bool := c == '\'' || c == '"'

/-- How the reading of a string ended. -/
inductive QuoteEnd where
  | closed
  | lineFeed
  | inputEnd
deriving DecidableEq

/-- Where strings are read: the blanks that a hexadecimal escape swallows, and
whether a bare line feed cuts a string short. -/
structure QuoteStyle where
  blank : Char → Bool
  stopsAtLineFeed : Bool

/-- Strings among the tokens of a stylesheet. -/
def QuoteStyle.stylesheet : QuoteStyle := ⟨isTokenBlank, true⟩

/-- Strings inside a selector. -/
def QuoteStyle.selector : QuoteStyle := ⟨isBlank, false⟩

/-- Reads the body of a string behind its opening quote: the text, how it
ended, and the input from there on. -/
def readQuoted (style : QuoteStyle) (quote : Char) :
    List Char → List Char × QuoteEnd × List Char
  | [] => ([], .inputEnd, [])
  | c :: rest =>
    if c = quote then ([], .closed, rest)
    else if c = '\n' ∧ style.stopsAtLineFeed then ([], .lineFeed, c :: rest)
    else if c = '\\' then
      match rest with
      | [] => ([], .inputEnd, [])
      | '\n' :: continued => readQuoted style quote continued
      | next :: behind =>
        let escape := readEscape style.blank (next :: behind)
        let tail := readQuoted style quote escape.2
        (escape.1 :: tail.1, tail.2)
    else
      let tail := readQuoted style quote rest
      (c :: tail.1, tail.2)
termination_by chars => chars.length
decreasing_by
  · simp only [List.length_cons]; omega
  · exact Nat.lt_succ_of_le (readEscape_length_le style.blank _)
  · simp

def writeQuotedChar (c : Char) : List Char :=
  if c.toNat = 0 then [replacement]
  else if isControl c then hexEscape c
  else if c = '"' ∨ c = '\\' then ['\\', c]
  else [c]

def writeQuoted (text : List Char) : List Char :=
  '"' :: text.flatMap writeQuotedChar ++ ['"']

theorem readQuoted_suffix (style : QuoteStyle) (quote : Char) (chars : List Char) :
    (readQuoted style quote chars).2.2 <:+ chars := by
  fun_induction readQuoted style quote chars with
  | case1 => exact List.suffix_rfl
  | case2 => exact List.suffix_cons _ _
  | case3 => exact List.suffix_rfl
  | case4 => exact List.suffix_cons _ _
  | case5 _ _ _ ih =>
    exact ih.trans ((List.suffix_cons _ _).trans (List.suffix_cons _ _))
  | case6 _ _ _ _ _ _ _ ih =>
    exact (ih.trans (readEscape_suffix style.blank _)).trans (List.suffix_cons _ _)
  | case7 _ _ _ _ _ _ ih => exact ih.trans (List.suffix_cons _ _)

theorem readQuoted_length_le (style : QuoteStyle) (quote : Char) (chars : List Char) :
    (readQuoted style quote chars).2.2.length ≤ chars.length :=
  (readQuoted_suffix style quote chars).length_le

end SelectorTree.Text
