import SelectorTree.Text.Name
import SelectorTree.Text.Quoted
import SelectorTree.Token.Number

/-!
# Reading tokens

Every text is a sequence of tokens and comments.  Line ends are first made
uniform; then each step skips the comments in front of it and reads the longest
token that its first character allows.  A character that begins no other token
is a token of its own, so nothing is refused, and what a step leaves behind is
always a proper end of what it was given.
-/

namespace SelectorTree.Token

open Text

/-- Makes every line end a line feed: a carriage return, one followed by a
line feed, and a form feed. -/
def uniformLines : List Char → List Char
  | '\r' :: '\n' :: rest => '\n' :: uniformLines rest
  | c :: rest => (if c = '\r' ∨ c = '\x0c' then '\n' else c) :: uniformLines rest
  | [] => []

/-- The input behind the comment whose opening has been read; a comment that is
never closed takes everything. -/
def afterComment : List Char → List Char
  | '*' :: '/' :: rest => rest
  | _ :: rest => afterComment rest
  | [] => []

theorem afterComment_suffix (chars : List Char) : afterComment chars <:+ chars := by
  fun_induction afterComment chars with
  | case1 rest => exact (List.suffix_cons _ _).trans (List.suffix_cons _ _)
  | case2 c rest _ ih => exact ih.trans (List.suffix_cons c rest)
  | case3 => exact List.suffix_rfl

/-- The input behind the comments that it begins with. -/
def skipComments : List Char → List Char
  | '/' :: '*' :: rest => skipComments (afterComment rest)
  | chars => chars
termination_by chars => chars.length
decreasing_by
  have shorter := (afterComment_suffix rest).length_le
  simp only [List.length_cons]
  omega

theorem skipComments_suffix (chars : List Char) : skipComments chars <:+ chars := by
  fun_induction skipComments chars with
  | case1 rest ih =>
    exact ((ih.trans (afterComment_suffix rest)).trans (List.suffix_cons _ _)).trans
      (List.suffix_cons _ _)
  | case2 => exact List.suffix_rfl

/-- A string token; a bare line feed inside it spoils it and stays in the
input. -/
def readString (quote : Char) (rest : List Char) : Token × List Char :=
  let body := readQuoted .stylesheet quote rest
  (if body.2.1 = .lineFeed then .badString else .string (String.ofList body.1), body.2.2)

theorem readString_suffix (quote : Char) (rest : List Char) :
    (readString quote rest).2 <:+ rest :=
  readQuoted_suffix .stylesheet quote rest

/-- The input behind a spoilt address: past the next closing parenthesis that
is not escaped. -/
def skipBadUrl : List Char → List Char
  | [] => []
  | c :: rest =>
    if c = ')' then rest
    else if startsEscape (c :: rest) then skipBadUrl (readEscape isTokenBlank rest).2
    else skipBadUrl rest
termination_by chars => chars.length
decreasing_by
  · exact Nat.lt_succ_of_le (readEscape_length_le isTokenBlank rest)
  · simp

theorem skipBadUrl_suffix (chars : List Char) : skipBadUrl chars <:+ chars := by
  fun_induction skipBadUrl chars with
  | case1 => exact List.suffix_rfl
  | case2 => exact List.suffix_cons _ _
  | case3 c rest _ _ ih =>
    exact (ih.trans (readEscape_suffix isTokenBlank rest)).trans (List.suffix_cons c rest)
  | case4 c rest _ _ ih => exact ih.trans (List.suffix_cons c rest)

def spoilsUrl (c : Char) : Bool := c == '"' || c == '\'' || c == '('

/-- Reads the rest of an unquoted address; `none` says that it is spoilt. -/
def readAddress : List Char → Option (List Char) × List Char
  | [] => (some [], [])
  | c :: rest =>
    if c = ')' then (some [], rest)
    else if isTokenBlank c then
      match rest.dropWhile isTokenBlank with
      | [] => (some [], [])
      | next :: behind =>
        if next = ')' then (some [], behind) else (none, skipBadUrl (next :: behind))
    else if startsEscape (c :: rest) then
      let escape := readEscape isTokenBlank rest
      let tail := readAddress escape.2
      (tail.1.map (escape.1 :: ·), tail.2)
    else if spoilsUrl c || c == '\\' then (none, skipBadUrl rest)
    else
      let tail := readAddress rest
      (tail.1.map (c :: ·), tail.2)
termination_by chars => chars.length
decreasing_by
  · exact Nat.lt_succ_of_le (readEscape_length_le isTokenBlank rest)
  · simp

theorem readAddress_suffix (chars : List Char) : (readAddress chars).2 <:+ chars := by
  fun_induction readAddress chars with
  | case1 => exact List.suffix_rfl
  | case2 => exact List.suffix_cons _ _
  | case3 => exact List.nil_suffix
  | case4 c rest _ _ behind behindBlanks =>
    have behindRest : ')' :: behind <:+ rest :=
      behindBlanks ▸ List.dropWhile_suffix isTokenBlank
    exact ((List.suffix_cons ')' behind).trans behindRest).trans (List.suffix_cons c rest)
  | case5 c rest _ _ next behind behindBlanks =>
    have behindRest : next :: behind <:+ rest :=
      behindBlanks ▸ List.dropWhile_suffix isTokenBlank
    exact ((skipBadUrl_suffix _).trans behindRest).trans (List.suffix_cons c rest)
  | case6 c rest _ _ _ _ _ ih =>
    exact (ih.trans (readEscape_suffix isTokenBlank rest)).trans (List.suffix_cons c rest)
  | case7 c rest => exact (skipBadUrl_suffix rest).trans (List.suffix_cons c rest)
  | case8 c rest _ _ _ _ _ ih => exact ih.trans (List.suffix_cons c rest)

/-- An address token behind its opening parenthesis. -/
def readUrl (rest : List Char) : Token × List Char :=
  let address := readAddress (rest.dropWhile isTokenBlank)
  (match address.1 with
    | some text => .url (String.ofList text)
    | none => .badUrl,
   address.2)

theorem readUrl_suffix (rest : List Char) : (readUrl rest).2 <:+ rest :=
  (readAddress_suffix _).trans (List.dropWhile_suffix isTokenBlank)

/-- Of the blanks at the start of the input, keeps the last one only. -/
def keepLastBlank : List Char → List Char
  | first :: second :: rest =>
    if isTokenBlank first && isTokenBlank second then keepLastBlank (second :: rest)
    else first :: second :: rest
  | chars => chars

theorem keepLastBlank_suffix (chars : List Char) : keepLastBlank chars <:+ chars := by
  fun_induction keepLastBlank chars with
  | case1 first second rest _ ih => exact ih.trans (List.suffix_cons _ _)
  | case2 => exact List.suffix_rfl
  | case3 => exact List.suffix_rfl

/-- Whether the input begins with a quote, a blank before it allowed. -/
def startsQuote : List Char → Bool
  | [] => false
  | c :: rest =>
    c == '"' || c == '\'' ||
      (isTokenBlank c && rest.head?.any (fun second => second == '"' || second == '\''))

/-- A token that begins with a name: an identifier, a function, or an address.
A quoted address is read as the argument of a function. -/
def readNamed (chars : List Char) : Token × List Char :=
  let name := readName isTokenBlank chars
  match name.2 with
  | '(' :: rest =>
    if sameLetters (String.ofList name.1) "url" then
      let inner := keepLastBlank rest
      if startsQuote inner then (.function (String.ofList name.1), inner) else readUrl inner
    else (.function (String.ofList name.1), rest)
  | rest => (.ident (String.ofList name.1), rest)

theorem readNamed_suffix (chars : List Char) :
    (readNamed chars).2 <:+ (readName isTokenBlank chars).2 := by
  simp only [readNamed]
  split
  · next rest opened =>
    rw [opened]
    split
    · split
      · exact (keepLastBlank_suffix rest).trans (List.suffix_cons _ rest)
      · exact ((readUrl_suffix _).trans (keepLastBlank_suffix rest)).trans
          (List.suffix_cons _ rest)
    · exact List.suffix_cons _ rest
  · exact List.suffix_rfl

def readNumeric (chars : List Char) : Token × List Char :=
  let number := NumberParts.split chars
  if startsIdentifier number.2 then
    let unit := readName isTokenBlank number.2
    (.dimension number.1.numeric (String.ofList unit.1), unit.2)
  else
    match number.2 with
    | '%' :: rest => (.percentage number.1.numeric, rest)
    | rest => (.number number.1.numeric, rest)

theorem readNumeric_suffix (chars : List Char) :
    (readNumeric chars).2 <:+ (NumberParts.split chars).2 := by
  simp only [readNumeric]
  split
  · exact readName_suffix isTokenBlank _
  · split
    · next rest percent =>
      rw [percent]
      exact List.suffix_cons _ rest
    · exact List.suffix_rfl

def readHash (rest : List Char) : Token × List Char :=
  let name := readName isTokenBlank rest
  (.hash (String.ofList name.1) (if startsIdentifier rest then .id else .unrestricted), name.2)

def readAtKeyword (rest : List Char) : Token × List Char :=
  let name := readName isTokenBlank rest
  (.atKeyword (String.ofList name.1), name.2)

/-- The token that begins with the character `c`, and the input behind it. -/
def readAt (c : Char) (rest : List Char) : Token × List Char :=
  if isTokenBlank c then (.whitespace, rest.dropWhile isTokenBlank)
  else match ofPunctuation? c with
  | some token => (token, rest)
  | none =>
    if c = '"' ∨ c = '\'' then readString c rest
    else if c = '#' ∧ startsName rest then readHash rest
    else if c = '@' ∧ startsIdentifier rest then readAtKeyword rest
    else if NumberParts.starts (c :: rest) then readNumeric (c :: rest)
    else if c = '-' ∧ ['-', '>'].isPrefixOf rest then (.commentClose, rest.drop 2)
    else if c = '<' ∧ ['!', '-', '-'].isPrefixOf rest then (.commentOpen, rest.drop 3)
    else if startsIdentifier (c :: rest) then readNamed (c :: rest)
    else (.delim c, rest)

/-- A token takes at least its first character. -/
theorem readAt_length_le (c : Char) (rest : List Char) :
    (readAt c rest).2.length ≤ rest.length := by
  unfold readAt
  split
  · exact (List.dropWhile_suffix isTokenBlank).length_le
  split
  · exact Nat.le_refl _
  split
  · exact (readString_suffix c rest).length_le
  split
  · exact readName_length_le isTokenBlank rest
  split
  · exact readName_length_le isTokenBlank rest
  split
  · next number =>
    exact Nat.le_of_lt_succ (Nat.lt_of_le_of_lt (readNumeric_suffix (c :: rest)).length_le
      (NumberParts.split_length_lt number))
  split
  · exact (List.drop_suffix 2 rest).length_le
  split
  · exact (List.drop_suffix 3 rest).length_le
  split
  · next identifier =>
    exact Nat.le_of_lt_succ (Nat.lt_of_le_of_lt (readNamed_suffix (c :: rest)).length_le
      (readName_length_lt isTokenBlank (startsName_of_startsIdentifier identifier)))
  · exact Nat.le_refl _

/-- The tokens of a text whose line ends are uniform, the end of file last. -/
def readAll (chars : List Char) : List Token :=
  match _remaining : skipComments chars with
  | [] => [.endOfFile]
  | c :: rest =>
    let step := readAt c rest
    step.1 :: readAll step.2
termination_by chars.length
decreasing_by
  have shorter := (skipComments_suffix chars).length_le
  rw [_remaining] at shorter
  exact Nat.lt_of_lt_of_le (Nat.lt_succ_of_le (readAt_length_le c rest)) shorter

/-- The tokens of a text, the end of file last. -/
def tokenize (text : String) : List Token :=
  readAll (uniformLines text.toList)

end SelectorTree.Token
