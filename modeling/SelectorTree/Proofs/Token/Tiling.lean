import SelectorTree.Proofs.Text.Denoting
import SelectorTree.Proofs.Token.RoundTrip

/-!
# Tokens cover their text

A text whose line ends are uniform is cut into pieces, one for each comment and one for each
token but the last.  Nothing lies between the pieces and none is empty, so every turn of the
lexer makes progress and passes over no character that it has not read.
-/

namespace SelectorTree.Token

open Text

/-! ## Line ends -/

/-- A text and the same text with a line feed for every line end. -/
inductive UniformLines : List Char → List Char → Prop where
  | nil : UniformLines [] []
  | pair {text lines : List Char} (others : UniformLines text lines) :
      UniformLines ('\r' :: '\n' :: text) ('\n' :: lines)
  | carriageReturn {text lines : List Char} (single : text.head? ≠ some '\n')
      (others : UniformLines text lines) : UniformLines ('\r' :: text) ('\n' :: lines)
  | formFeed {text lines : List Char} (others : UniformLines text lines) :
      UniformLines ('\x0c' :: text) ('\n' :: lines)
  | char {c : Char} {text lines : List Char} (notReturn : c ≠ '\r') (notFeed : c ≠ '\x0c')
      (others : UniformLines text lines) : UniformLines (c :: text) (c :: lines)

theorem uniformLines_spec (text : List Char) : UniformLines text (uniformLines text) := by
  fun_induction uniformLines text with
  | case1 rest ih => exact .pair ih
  | case2 c rest noPair ih =>
      split
      · next lineEnd =>
          rcases lineEnd with rfl | rfl
          · refine .carriageReturn (fun follows => ?_) ih
            obtain ⟨behind, rfl⟩ := List.head?_eq_some_iff.mp follows
            exact noPair behind rfl rfl
          · exact .formFeed ih
      · next ordinary =>
          obtain ⟨notReturn, notFeed⟩ := not_or.mp ordinary
          exact .char notReturn notFeed ih
  | case3 => exact .nil

/-! ## Pieces -/

/-- A comment and what follows it: it ends with the first `*/` behind its opening, or, if there
is none, with the text. -/
def IsComment (chars behind : List Char) : Prop :=
  ∃ body, chars = '/' :: '*' :: body ∧
    ((∃ text, body = text ++ ['*', '/'] ∧ ¬['*', '/'] <:+: text ++ ['*']) ∨
      (behind = [] ∧ ¬['*', '/'] <:+: body))

/-- Whether a token was read from `taken` where `behind` follows. -/
def TakenFrom (token : Token) (taken behind : List Char) : Prop :=
  match token with
  | whitespace => (∀ c ∈ taken, isTokenBlank c = true) ∧ behind.head?.any isTokenBlank = false
  | delim c => taken = [c]
  | number numeric => taken = numeric.spelling.toList
  | percentage numeric => taken = numeric.spelling.toList ++ ['%']
  | dimension numeric unit => ∃ text, taken = numeric.spelling.toList ++ text ∧
      DenotesName isTokenBlank unit.toList text
  | ident name => DenotesName isTokenBlank name.toList taken
  | function name => ∃ text blanks, taken = text ++ '(' :: blanks ∧
      DenotesName isTokenBlank name.toList text ∧ ∀ c ∈ blanks, isTokenBlank c = true
  | atKeyword name => ∃ text, taken = '@' :: text ∧ DenotesName isTokenBlank name.toList text
  | hash name _ => ∃ text, taken = '#' :: text ∧ DenotesName isTokenBlank name.toList text
  | string _ | badString => ∃ quote body, taken = quote :: body ∧ isQuote quote = true
  | url _ | badUrl => ∃ name text body, taken = text ++ '(' :: body ∧
      DenotesName isTokenBlank name text ∧ sameLetters (String.ofList name) "url" = true
  | endOfFile => False
  | fixed => taken = fixed.chars

/-- A part of a text: a comment, or what a token was read from. -/
structure Piece where
  token? : Option Token
  chars : List Char

/-- Whether a piece is one where `behind` follows. -/
structure Piece.Fits (piece : Piece) (behind : List Char) : Prop where
  nonempty : piece.chars ≠ []
  comment : piece.token? = none → IsComment piece.chars behind
  taken : ∀ token, piece.token? = some token → token.TakenFrom piece.chars behind

/-- A text that is cut into pieces. -/
inductive Tiled : List Piece → List Char → Prop where
  | nil : Tiled [] []
  | cons {piece : Piece} {pieces : List Piece} {behind : List Char} (fits : piece.Fits behind)
      (others : Tiled pieces behind) : Tiled (piece :: pieces) (piece.chars ++ behind)

variable {c : Char} {token : Token} {chars taken rest : List Char}

namespace Tiled

variable {pieces front back : List Piece} {piece : Piece}

theorem flatMap_eq (tiled : Tiled pieces chars) : pieces.flatMap Piece.chars = chars := by
  induction tiled with
  | nil => rfl
  | cons _ _ ih => rw [List.flatMap_cons, ih]

theorem fits (tiled : Tiled (front ++ piece :: back) chars) :
    piece.Fits (back.flatMap Piece.chars) := by
  induction front generalizing chars with
  | nil =>
      obtain _ | ⟨fits, others⟩ := tiled
      rwa [others.flatMap_eq]
  | cons first front ih =>
      obtain _ | ⟨-, others⟩ := tiled
      exact ih others

theorem length_le (tiled : Tiled pieces chars) : pieces.length ≤ chars.length := by
  induction tiled with
  | nil => exact Nat.le_refl 0
  | cons fits _ ih =>
      have filled := List.length_pos_iff.mpr fits.nonempty
      rw [List.length_cons, List.length_append]
      omega

end Tiled

/-! ## Comments -/

/-- A character that does not close a comment with what follows it is as good as none. -/
theorem not_infix_cons (apart : ∀ behind, c = '*' → rest ≠ '/' :: behind) (within : taken <+: rest)
    (none : ¬['*', '/'] <:+: taken) : ¬['*', '/'] <:+: c :: taken := by
  intro inside
  rcases List.infix_cons_iff.mp inside with begins | later
  · obtain ⟨star, slash⟩ := List.cons_prefix_cons.mp begins
    obtain ⟨behind, whole⟩ := slash.trans within
    exact apart behind star.symm whole.symm
  · exact none later

theorem isComment_afterComment (rest : List Char) : ∃ body, rest = body ++ afterComment rest ∧
    IsComment ('/' :: '*' :: body) (afterComment rest) := by
  fun_induction afterComment rest with
  | case1 rest => exact ⟨['*', '/'], rfl, _, rfl, Or.inl ⟨[], rfl, by decide⟩⟩
  | case2 c rest notClosed ih =>
      obtain ⟨body, whole, _, same, ends⟩ := ih
      cases same
      refine ⟨c :: body, by rw [List.cons_append, ← whole], _, rfl, ?_⟩
      rcases ends with ⟨text, rfl, none⟩ | ⟨last, none⟩
      · have within : text ++ ['*'] <+: rest := by
          refine ⟨'/' :: afterComment rest, ?_⟩
          rw [List.append_assoc]
          exact (whole.trans (List.append_assoc _ _ _)).symm
        exact Or.inl ⟨c :: text, rfl, not_infix_cons notClosed within none⟩
      · exact Or.inr ⟨last, not_infix_cons notClosed ⟨_, whole.symm⟩ none⟩
  | case3 => exact ⟨[], rfl, _, rfl, Or.inr ⟨rfl, by decide⟩⟩

/-- The comments in front of a text that is cut into pieces are pieces without a token. -/
theorem Tiled.exists_comments {pieces : List Piece} (tiled : Tiled pieces (skipComments chars)) :
    ∃ all, Tiled all chars ∧ all.filterMap Piece.token? = pieces.filterMap Piece.token? := by
  fun_induction skipComments chars with
  | case1 rest ih =>
      obtain ⟨all, others, sameTokens⟩ := ih tiled
      obtain ⟨body, whole, comment⟩ := isComment_afterComment rest
      refine ⟨⟨none, '/' :: '*' :: body⟩ :: all, ?_, sameTokens⟩
      have here : Piece.Fits ⟨none, '/' :: '*' :: body⟩ (afterComment rest) :=
        ⟨List.cons_ne_nil _ _, fun _ => comment, by simp⟩
      have both := Tiled.cons here others
      rwa [List.cons_append, List.cons_append, ← whole] at both
  | case2 => exact ⟨pieces, tiled, rfl⟩

/-! ## Tokens -/

/-- A token that is read from the front of `chars`, with `behind` left over. -/
def Takes (read : Token × List Char) (chars : List Char) : Prop :=
  ∃ taken, chars = taken ++ read.2 ∧ read.1.TakenFrom taken read.2

theorem takenFrom_of_ofPunctuation? (known : ofPunctuation? c = some token) :
    token.TakenFrom [c] rest := by
  unfold ofPunctuation? at known
  split at known <;> cases known <;> rfl

theorem takes_readString (quote : isQuote c = true) (rest : List Char) :
    Takes (readString c rest) (c :: rest) := by
  obtain ⟨body, whole⟩ := readString_suffix c rest
  refine ⟨c :: body, by rw [List.cons_append, whole], ?_⟩
  rw [readString]
  split <;> exact ⟨c, body, rfl, quote⟩

theorem takes_readHash (rest : List Char) : Takes (readHash rest) ('#' :: rest) := by
  obtain ⟨text, whole, denotes⟩ := denotesName_readName isTokenBlank rest
  refine ⟨'#' :: text, congrArg ('#' :: ·) whole, text, rfl, ?_⟩
  rwa [String.toList_ofList]

theorem takes_readAtKeyword (rest : List Char) : Takes (readAtKeyword rest) ('@' :: rest) := by
  obtain ⟨text, whole, denotes⟩ := denotesName_readName isTokenBlank rest
  refine ⟨'@' :: text, congrArg ('@' :: ·) whole, text, rfl, ?_⟩
  rwa [String.toList_ofList]

theorem takes_readNumeric (chars : List Char) : Takes (readNumeric chars) chars := by
  have number := NumberParts.split_append chars
  simp only [readNumeric]
  split
  · obtain ⟨text, whole, denotes⟩ :=
      denotesName_readName isTokenBlank (NumberParts.split chars).2
    refine ⟨(NumberParts.split chars).1.spelling ++ text, ?_, text, ?_, ?_⟩
    · rw [List.append_assoc, ← whole, number]
    · rw [toList_spelling]
    · rwa [String.toList_ofList]
  · split
    · next behind percent =>
        rw [percent] at number
        refine ⟨(NumberParts.split chars).1.spelling ++ ['%'], ?_, ?_⟩
        · rw [List.append_assoc, List.singleton_append, number]
        · exact congrArg (fun digits : List Char => digits ++ ['%']) (toList_spelling _).symm
    · exact ⟨_, number.symm, (toList_spelling _).symm⟩

theorem exists_blanks_keepLastBlank (chars : List Char) : ∃ blanks,
    chars = blanks ++ keepLastBlank chars ∧ ∀ c ∈ blanks, isTokenBlank c = true := by
  fun_induction keepLastBlank chars with
  | case1 first second rest both ih =>
      obtain ⟨blanks, whole, all⟩ := ih
      refine ⟨first :: blanks, by rw [List.cons_append, ← whole], ?_⟩
      exact List.forall_mem_cons.mpr ⟨(Bool.and_eq_true_iff.mp both).1, all⟩
  | case2 => exact ⟨[], rfl, by simp⟩
  | case3 => exact ⟨[], rfl, by simp⟩

theorem takes_readNamed (chars : List Char) : Takes (readNamed chars) chars := by
  obtain ⟨text, whole, denotes⟩ := denotesName_readName isTokenBlank chars
  simp only [readNamed]
  split
  · next rest opened =>
      rw [opened] at whole
      split
      · next isUrl =>
          split
          · obtain ⟨blanks, gap, all⟩ := exists_blanks_keepLastBlank rest
            refine ⟨text ++ '(' :: blanks, ?_, text, blanks, rfl, ?_, all⟩
            · rw [List.append_assoc, List.cons_append, ← gap, whole]
            · rwa [String.toList_ofList]
          · obtain ⟨body, address⟩ := (readUrl_suffix (keepLastBlank rest)).trans
              (keepLastBlank_suffix rest)
            refine ⟨text ++ '(' :: body, ?_, ?_⟩
            · rw [List.append_assoc, List.cons_append, address, whole]
            · simp only [readUrl]
              split <;> exact ⟨_, text, body, rfl, denotes, isUrl⟩
      · refine ⟨text ++ ['('], ?_, text, [], rfl, ?_, by simp⟩
        · rw [List.append_assoc, List.singleton_append, whole]
        · rwa [String.toList_ofList]
  · have spelled : DenotesName isTokenBlank
        (String.ofList (readName isTokenBlank chars).1).toList text := by
      rwa [String.toList_ofList]
    exact ⟨text, whole, spelled⟩

theorem takes_readAt (c : Char) (rest : List Char) : Takes (readAt c rest) (c :: rest) := by
  have here := read_readAt c rest
  generalize readAt c rest = read at here ⊢
  cases here with
  | blank blank =>
      refine ⟨c :: rest.takeWhile isTokenBlank, ?_, ?_, any_head?_dropWhile isTokenBlank rest⟩
      · rw [List.cons_append, List.takeWhile_append_dropWhile]
      · exact List.forall_mem_cons.mpr ⟨blank, fun _ => List.mem_takeWhile_imp⟩
  | punctuation known => exact ⟨[c], rfl, takenFrom_of_ofPunctuation? known⟩
  | quote quote => exact takes_readString quote rest
  | hash => exact takes_readHash rest
  | atKeyword => exact takes_readAtKeyword rest
  | numeric => exact takes_readNumeric (c :: rest)
  | commentClose behind => exact ⟨['-', '-', '>'], rfl, rfl⟩
  | commentOpen behind => exact ⟨['<', '!', '-', '-'], rfl, rfl⟩
  | named => exact takes_readNamed (c :: rest)
  | delim => exact ⟨[c], rfl, rfl⟩

/-- A token is read from a piece; that is not empty, since what is left is shorter. -/
theorem exists_piece_readAt (c : Char) (rest : List Char) : ∃ piece : Piece,
    piece.token? = some (readAt c rest).1 ∧ c :: rest = piece.chars ++ (readAt c rest).2 ∧
      piece.Fits (readAt c rest).2 := by
  obtain ⟨taken, whole, takenFrom⟩ := takes_readAt c rest
  refine ⟨⟨some (readAt c rest).1, taken⟩, rfl, whole, ?_, by simp, ?_⟩
  · rintro rfl
    have shorter := readAt_length_le c rest
    rw [List.nil_append] at whole
    rw [← whole] at shorter
    exact Nat.not_succ_le_self _ shorter
  · rintro _ ⟨⟩
    exact takenFrom

/-! ## Texts -/

/-- The tokens of a text but the last are those of its pieces, by induction on the turns of the
lexer. -/
theorem exists_tiled_readAll (chars : List Char) : ∃ pieces, Tiled pieces chars ∧
    readAll chars = pieces.filterMap Piece.token? ++ [.endOfFile] := by
  fun_induction readAll chars with
  | case1 chars remaining =>
      have nothing : Tiled [] (skipComments chars) := remaining ▸ .nil
      obtain ⟨comments, tiled, noTokens⟩ := nothing.exists_comments
      exact ⟨comments, tiled, by rw [noTokens]; rfl⟩
  | case2 chars c rest remaining step ih =>
      obtain ⟨pieces, behind, tokens⟩ := ih
      obtain ⟨piece, isToken, whole, fits⟩ := exists_piece_readAt c rest
      have tiled : Tiled (piece :: pieces) (skipComments chars) := by
        rw [remaining, whole]
        exact .cons fits behind
      obtain ⟨all, allTiled, sameTokens⟩ := tiled.exists_comments
      refine ⟨all, allTiled, ?_⟩
      rw [sameTokens, List.filterMap_cons_some isToken, List.cons_append, tokens]

theorem Tiled.endOfFile_notMem {pieces : List Piece} (tiled : Tiled pieces chars) :
    .endOfFile ∉ pieces.filterMap Piece.token? := by
  intro member
  obtain ⟨piece, listed, isEnd⟩ := List.mem_filterMap.mp member
  obtain ⟨front, back, rfl⟩ := List.append_of_mem listed
  exact tiled.fits.taken .endOfFile isEnd

/-- Every text is read to its end, with its line ends made uniform: its tokens are those of the
pieces into which it is cut, in order, and one for the end of the file behind them.  There are
at most as many pieces as characters. -/
theorem tokenize_tiles (text : String) : ∃ lines pieces,
    UniformLines text.toList lines ∧
      tokenize text = pieces.filterMap Piece.token? ++ [.endOfFile] ∧
      .endOfFile ∉ pieces.filterMap Piece.token? ∧
      lines = pieces.flatMap Piece.chars ∧
      pieces.length ≤ lines.length ∧
      ∀ front piece back, pieces = front ++ piece :: back →
        piece.Fits (back.flatMap Piece.chars) := by
  obtain ⟨pieces, tiled, tokens⟩ := exists_tiled_readAll (uniformLines text.toList)
  refine ⟨uniformLines text.toList, pieces, uniformLines_spec text.toList, tokens,
    tiled.endOfFile_notMem, tiled.flatMap_eq.symm, tiled.length_le, ?_⟩
  rintro front piece back rfl
  exact tiled.fits

end SelectorTree.Token
