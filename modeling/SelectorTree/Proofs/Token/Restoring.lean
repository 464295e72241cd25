import SelectorTree.Proofs.Token.Numberlike
import SelectorTree.Proofs.Token.Writing

/-!
# Which tokens are read back by themselves

Hashes, addresses and numbers are put together from parts, and each part is written without
regard to the others.  So a name behind a hash or a number may lose the escape that made it an
identifier, a unit may go on with its number, and a line end in an address cannot be escaped at
all.  A token that was read from a text comes back from its own text in all other cases, and in
no other.
-/

namespace SelectorTree.Token

open Text
open NumberParts (startsDigit)

variable {c : Char} {name chars rest address unit : List Char} {parts : NumberParts}

/-! ## Hashes -/

theorem startsName_of_startsEscape (escape : startsEscape chars = true) :
    startsName chars = true := by
  cases chars with
  | nil => cases escape
  | cons c rest => rw [startsName, escape, Bool.or_true]

theorem startsName_of_spelling {part : List Char} (spelling : Spelling c part)
    (rest : List Char) : startsName (part ++ rest) = true := by
  cases spelling with
  | plain named => simp [startsName, named]
  | escaped _ ordinary =>
      exact startsName_of_startsEscape (bne_iff_ne.mpr (ne_lineFeed_of_not_isControl ordinary))
  | coded special => exact startsName_of_startsEscape (startsEscape_hexEscape special)

theorem startsName_writeName (named : name ≠ []) (noNul : ∀ c ∈ name, c.toNat ≠ 0) :
    startsName (writeName name) = true := by
  cases name with
  | nil => exact absurd rfl named
  | cons c name =>
      exact startsName_of_spelling (spelling_writeNameChar (noNul c List.mem_cons_self)) _

theorem readName_writeName (noNul : ∀ c ∈ name, c.toNat ≠ 0) :
    readName isTokenBlank (writeName name) = (name, []) := by
  have read : readName isTokenBlank (writeName name ++ []) = _ :=
    (spells_writeName noNul).readName_append rfl
  simpa [readName] using read

/-- A hash is read as an identifier unless its name begins like a number. -/
theorem tokenize_hash (kind : HashKind) (named : name ≠ []) (noNul : ∀ c ∈ name, c.toNat ≠ 0) :
    tokenize (Token.hash (String.ofList name) kind).toText =
      [.hash (String.ofList name) (if leadsLikeNumber name then .unrestricted else .id),
        .endOfFile] := by
  have written : (Token.hash (String.ofList name) kind).toText.toList = '#' :: writeName name := by
    simp [toText, Token.chars]
  have ordinary : ∀ c ∈ '#' :: writeName name, isControl c = false :=
    List.forall_mem_cons.mpr ⟨rfl, (spells_writeName noNul).not_isControl⟩
  rw [tokenize_of_not_isControl (written ▸ ordinary), written, readAll_cons (by decide),
    readAt_hash (startsName_writeName named noNul)]
  simp only [readHash, readName_writeName noNul, startsIdentifier_writeName noNul, readAll_nil]
  cases leadsLikeNumber name <;> rfl

/-! ## Addresses -/

def isLineEnd (c : Char) : Bool := c == '\n' || c == '\r' || c == '\x0c'

/-- A character as the lexer sees it once the line ends are uniform. -/
def uniformChar (c : Char) : Char := if c = '\r' ∨ c = '\x0c' then '\n' else c

theorem uniformChar_eq_lineFeed_iff : uniformChar c = '\n' ↔ isLineEnd c = true := by
  rw [uniformChar]
  split
  · next lineEnd => rcases lineEnd with rfl | rfl <;> decide
  · next ordinary =>
      obtain ⟨notReturn, notFeed⟩ := not_or.mp ordinary
      simp [isLineEnd, notReturn, notFeed]

theorem uniformChar_eq_self (inLine : isLineEnd c = false) : uniformChar c = c := by
  simp only [isLineEnd, Bool.or_eq_false_iff, beq_eq_false_iff_ne] at inLine
  rw [uniformChar, if_neg (not_or.mpr ⟨inLine.1.2, inLine.2⟩)]

theorem uniformLines_cons (apart : c = '\r' → rest.head? ≠ some '\n') :
    uniformLines (c :: rest) = uniformChar c :: uniformLines rest := by
  rw [uniformLines, uniformChar]
  rintro behind rfl rfl
  exact apart rfl rfl

/-- A line end is escaped in an address, and stays so. -/
theorem writeUrlChar_uniformChar (c : Char) :
    writeUrlChar (uniformChar c) = (writeUrlChar c).map uniformChar := by
  rw [uniformChar]
  split
  · next lineEnd => rcases lineEnd with rfl | rfl <;> rfl
  · next ordinary =>
      have same : uniformChar c = c := by rw [uniformChar, if_neg ordinary]
      have backslash : uniformChar '\\' = '\\' := rfl
      cases escaped : escapedInUrl c <;> simp [writeUrlChar, escaped, same, backslash]

theorem uniformLines_writeUrl (address : List Char) :
    uniformLines (address.flatMap writeUrlChar ++ [')']) =
      (address.map uniformChar).flatMap writeUrlChar ++ [')'] := by
  induction address with
  | nil => rfl
  | cons c address ih =>
      obtain ⟨first, others, begins, shown, -⟩ := exists_cons_writeUrl address []
      have apart : c = '\r' → (address.flatMap writeUrlChar ++ [')']).head? ≠ some '\n' := by
        rw [begins]
        rintro - ⟨⟩
        cases shown
      rw [List.flatMap_cons, List.append_assoc, List.map_cons, List.flatMap_cons,
        writeUrlChar_uniformChar, List.append_assoc, ← ih]
      cases escaped : escapedInUrl c with
      | true =>
          rw [writeUrlChar, if_pos escaped, List.cons_append, List.singleton_append,
            uniformLines_cons (by simp), uniformLines_cons apart]
          rfl
      | false =>
          rw [writeUrlChar, escaped, if_neg Bool.false_ne_true, List.singleton_append,
            uniformLines_cons apart]
          rfl

/-- A line end spoils an address, escaped as it is. -/
theorem readAddress_of_lineFeed (member : '\n' ∈ address) (rest : List Char) :
    (readAddress (address.flatMap writeUrlChar ++ rest)).1 = none := by
  induction address with
  | nil => cases member
  | cons c address ih =>
      rw [List.flatMap_cons, List.append_assoc]
      by_cases lineFeed : c = '\n'
      · subst lineFeed
        rw [readAddress.eq_def]
        rfl
      · have later := (List.mem_cons.mp member).resolve_left (Ne.symm lineFeed)
        rw [readAddress_writeUrlChar lineFeed, ih later]
        rfl

theorem readAll_writeUrl (address : List Char) :
    readAll (['u', 'r', 'l'] ++ '(' :: (address.flatMap writeUrlChar ++ [')'])) =
      (readUrl (address.flatMap writeUrlChar ++ [')'])).1 ::
        readAll (readUrl (address.flatMap writeUrlChar ++ [')'])).2 := by
  have read : readAt 'u' (['r', 'l'] ++ '(' :: (address.flatMap writeUrlChar ++ [')'])) =
      readUrl (address.flatMap writeUrlChar ++ [')']) := by
    rw [← readNamed_written address []]
    refine readAt_of_startsIdentifier rfl fun begins => ?_
    cases (List.cons_prefix_cons.mp begins).1
  rw [List.cons_append, readAll_cons (by decide), read]

/-- An address is read back if it stays in its line. -/
theorem tokenize_url_iff : tokenize (Token.url (String.ofList address)).toText =
    [.url (String.ofList address), .endOfFile] ↔ ∀ c ∈ address, isLineEnd c = false := by
  have written : (Token.url (String.ofList address)).toText.toList =
      ['u', 'r', 'l'] ++ '(' :: (address.flatMap writeUrlChar ++ [')']) := by
    simp [toText, Token.chars]
  have read : tokenize (Token.url (String.ofList address)).toText =
      readAll (['u', 'r', 'l'] ++ '(' ::
        ((address.map uniformChar).flatMap writeUrlChar ++ [')'])) := by
    rw [tokenize, written, ← uniformLines_writeUrl]
    rfl
  rw [read, readAll_writeUrl]
  constructor
  · intro same c member
    rw [← Bool.not_eq_true]
    intro lineEnd
    have lineFeed : '\n' ∈ address.map uniformChar :=
      List.mem_map.mpr ⟨c, member, uniformChar_eq_lineFeed_iff.mpr lineEnd⟩
    have spoilt := readAddress_of_lineFeed lineFeed [')']
    have first := (List.cons.inj same).1
    simp only [readUrl, dropWhile_writeUrl, spoilt] at first
    cases first
  · intro inLine
    have kept : address.map uniformChar = address :=
      List.map_congr_left (fun c member => uniformChar_eq_self (inLine c member)) |>.trans
        (List.map_id' address)
    have noLineFeed : '\n' ∉ address := fun member => by cases inLine '\n' member
    simp only [kept, readUrl, dropWhile_writeUrl, readAddress_writeUrl noLineFeed, readAll_nil]

/-! ## Numbers -/

section numeric

variable (isNumber : parts.IsNumber)
include isNumber

theorem tokenize_numeric {token : Token} {following : List Char}
    (written : token.chars = parts.spelling ++ following)
    (ordinary : ∀ c ∈ following, isControl c = false) :
    tokenize token.toText = (readNumeric (parts.spelling ++ following)).1 ::
      readAll (readNumeric (parts.spelling ++ following)).2 := by
  have text : token.toText.toList = parts.spelling ++ following := by
    rw [toText, String.toList_ofList, written]
  have number := isNumber.starts_spelling following
  have plain : ∀ c ∈ token.toText.toList, isControl c = false := by
    rw [text, List.forall_mem_append]
    exact ⟨fun c => isNumber.not_isControl_of_mem_spelling, ordinary⟩
  rw [tokenize_of_not_isControl plain, text]
  generalize parts.spelling ++ following = chars at number
  cases chars with
  | nil => cases number
  | cons c rest => rw [readAll_cons (ne_of_starts number rfl), readAt_of_starts number]

theorem tokenize_number :
    tokenize (Token.number parts.numeric).toText = [.number parts.numeric, .endOfFile] := by
  have split : NumberParts.split (parts.spelling ++ []) = (parts, []) :=
    isNumber.split_spelling ⟨rfl, fun _ _ => rfl, fun _ => rfl⟩
  have written : (Token.number parts.numeric).chars = parts.spelling ++ [] := by
    rw [Token.chars, toList_spelling, List.append_nil]
  rw [tokenize_numeric isNumber written (by simp), readNumeric_number split rfl (by simp),
    readAll_nil]

theorem tokenize_percentage :
    tokenize (Token.percentage parts.numeric).toText =
      [.percentage parts.numeric, .endOfFile] := by
  have split : NumberParts.split (parts.spelling ++ ['%']) = (parts, ['%']) :=
    isNumber.split_spelling ⟨rfl, fun _ _ => rfl, fun _ => rfl⟩
  have written : (Token.percentage parts.numeric).chars = parts.spelling ++ ['%'] := by
    rw [Token.chars, toList_spelling]
  rw [tokenize_numeric isNumber written (by simp [isControl]), readNumeric_percentage split,
    readAll_nil]

/-- A unit is read back if it does not go on with the number. -/
theorem tokenize_dimension_iff (noNul : ∀ c ∈ unit, c.toNat ≠ 0) :
    tokenize (Token.dimension parts.numeric (String.ofList unit)).toText =
        [.dimension parts.numeric (String.ofList unit), .endOfFile] ↔
      leadsLikeNumber unit = false ∧
        (parts.exponent = [] → leadsLikeExponent unit = false) := by
  have written : (Token.dimension parts.numeric (String.ofList unit)).chars =
      parts.spelling ++ writeName unit := by
    rw [Token.chars, toList_spelling, String.toList_ofList]
  have starts : startsIdentifier (writeName unit) = !leadsLikeNumber unit :=
    startsIdentifier_writeName noNul
  have exponent : startsExponent (writeName unit) = leadsLikeExponent unit :=
    startsExponent_writeName noNul
  rw [tokenize_numeric isNumber written (spells_writeName noNul).not_isControl]
  constructor
  · intro same
    have joined := NumberParts.split_append (parts.spelling ++ writeName unit)
    obtain ⟨again, behind, isSplit⟩ : ∃ again behind,
        NumberParts.split (parts.spelling ++ writeName unit) = (again, behind) := ⟨_, _, rfl⟩
    have number := NumberParts.isNumber_split (isNumber.starts_spelling (writeName unit))
    have ends := NumberParts.ends_split (parts.spelling ++ writeName unit)
    rw [isSplit] at joined number ends
    have first := (List.cons.inj same).1
    simp only [readNumeric, isSplit] at first
    split at first
    · next named =>
        -- The same spelling was split off, hence the unit stands behind it.
        have numeric : again.numeric = parts.numeric := (Token.dimension.inj first).1
        have spelling : again.spelling = parts.spelling := by
          rw [← toList_spelling, ← toList_spelling, numeric]
        rw [spelling] at joined
        have unitBehind : behind = writeName unit := List.append_cancel_left joined
        subst unitBehind
        rw [starts] at named
        refine ⟨by simpa using named, fun none => ?_⟩
        rw [← exponent]
        refine ends.noExponent (number.exponent_eq_nil_iff.mpr ?_)
        rw [spelling]
        exact isNumber.exponent_eq_nil_iff.mp none
    · split at first <;> cases first
  · rintro ⟨noNumber, noExponent⟩
    have noDigit : startsDigit (writeName unit) = false := by
      rw [startsDigit_writeName noNul, ← Bool.not_eq_true]
      intro digit
      cases unit with
      | nil => cases digit
      | cons c unit =>
          rw [leadsLikeNumber_of_isDigit digit] at noNumber
          cases noNumber
    have split := isNumber.split_spelling ⟨noDigit,
      fun _ _ => not_startsFraction_writeName noNul, fun none => exponent.trans (noExponent none)⟩
    rw [readNumeric_dimension split (by rw [starts, noNumber]; rfl) (readName_writeName noNul),
      readAll_nil]

end numeric

/-! ## Tokens of a text -/

/-- The texts that a token is put together from. -/
def texts : Token → List String
  | hash name _ => [name]
  | url address => [address]
  | number numeric => [numeric.spelling]
  | percentage numeric => [numeric.spelling]
  | dimension numeric unit => [numeric.spelling, unit]
  | _ => []

/-- Whether the parts of a token are taken for what they were where they stand together: an
identifier does not begin like a number, an address stays in its line, and a unit is not the
exponent of its number. -/
def holdsTogether : Token → Bool
  | hash name .id => !leadsLikeNumber name.toList
  | url address => address.toList.all (!isLineEnd ·)
  | dimension numeric unit => !leadsLikeNumber unit.toList &&
      (numeric.spelling.toList.any isExponentLetter || !leadsLikeExponent unit.toList)
  | _ => true

/-- How a token that is put together from parts is read. -/
inductive Assembled : Token → Prop where
  | hash {chars : List Char} (named : startsName chars = true) : Assembled (readHash chars).1
  | url (address : List Char) : Assembled (.url (String.ofList address))
  | numeric {chars : List Char} (number : NumberParts.starts chars = true) :
      Assembled (readNumeric chars).1

variable {token : Token}

theorem texts_of_ofPunctuation? (known : ofPunctuation? c = some token) :
    token.texts = [] := by
  unfold ofPunctuation? at known
  split at known <;> first | (cases known; rfl) | cases known

theorem assembled_of_readUrl (read : (readUrl rest).1 = token) (composite : token.texts ≠ []) :
    Assembled token := by
  simp only [readUrl] at read
  split at read <;> subst read
  · next address _ => exact .url address
  · exact absurd rfl composite

theorem assembled_of_readNamed (read : (readNamed chars).1 = token)
    (composite : token.texts ≠ []) : Assembled token := by
  simp only [readNamed] at read
  split at read
  · split at read
    · split at read
      · subst read
        exact absurd rfl composite
      · exact assembled_of_readUrl read composite
    · subst read
      exact absurd rfl composite
  · subst read
    exact absurd rfl composite

theorem assembled_of_readAt (read : (readAt c rest).1 = token) (composite : token.texts ≠ []) :
    Assembled token := by
  have single : ∀ {other : Token}, other = token → other.texts = [] → Assembled token :=
    fun same none => absurd (same ▸ none) composite
  have here := read_readAt c rest
  generalize readAt c rest = result at read here
  cases here with
  | punctuation known => exact single read (texts_of_ofPunctuation? known)
  | quote =>
      rw [readString] at read
      split at read <;> exact single read rfl
  | hash named => exact read ▸ .hash named
  | numeric number => exact read ▸ .numeric number
  | named => exact assembled_of_readNamed read composite
  | blank | atKeyword | commentClose | commentOpen | delim => exact single read rfl

theorem exists_readAt_of_mem (member : token ∈ readAll chars) :
    token = .endOfFile ∨ ∃ c rest, (readAt c rest).1 = token := by
  fun_induction readAll chars with
  | case1 => exact Or.inl (List.mem_singleton.mp member)
  | case2 chars c rest _ step ih =>
      rcases List.mem_cons.mp member with rfl | later
      · exact Or.inr ⟨c, rest, rfl⟩
      · exact ih later

theorem tokenize_readHash_iff (named : startsName chars = true)
    (noNul : ∀ text ∈ (readHash chars).1.texts, '\x00' ∉ text.toList) :
    tokenize (readHash chars).1.toText = [(readHash chars).1, .endOfFile] ↔
      (readHash chars).1.holdsTogether = true := by
  obtain ⟨name, behind, read⟩ : ∃ name behind, readName isTokenBlank chars = (name, behind) :=
    ⟨_, _, rfl⟩
  have some : name ≠ [] := by
    have filled := readName_ne_nil isTokenBlank named
    rwa [read] at filled
  simp only [readHash, read, texts, List.forall_mem_singleton, String.toList_ofList] at noNul ⊢
  rw [tokenize_hash _ some (toNat_ne_zero_of_not_mem noNul)]
  cases starts : startsIdentifier chars with
  | true =>
      simp only [if_true, holdsTogether, String.toList_ofList]
      cases leadsLikeNumber name <;> simp
  | false =>
      -- The name of a hash that is no identifier begins like a number.
      have leads : leadsLikeNumber (readName isTokenBlank chars).1 = true :=
        leadsLikeNumber_readName named starts
      rw [read] at leads
      simp [holdsTogether, leads]

theorem tokenize_readNumeric_iff (number : NumberParts.starts chars = true)
    (noNul : ∀ text ∈ (readNumeric chars).1.texts, '\x00' ∉ text.toList) :
    tokenize (readNumeric chars).1.toText = [(readNumeric chars).1, .endOfFile] ↔
      (readNumeric chars).1.holdsTogether = true := by
  have isNumber := NumberParts.isNumber_split number
  simp only [readNumeric] at noNul ⊢
  split at noNul
  · next named =>
      simp only [texts, List.forall_mem_cons, String.toList_ofList] at noNul
      have unitNoNul := toNat_ne_zero_of_not_mem noNul.2.1
      rw [if_pos named, tokenize_dimension_iff isNumber unitNoNul, isNumber.exponent_eq_nil_iff]
      simp [holdsTogether, toList_spelling, or_iff_not_imp_left]
  · next unnamed =>
      rw [if_neg unnamed]
      split
      · simp [tokenize_percentage isNumber, holdsTogether]
      · simp [tokenize_number isNumber, holdsTogether]

/-- A token of a text that is put together from parts is read back from its own text if and
only if its parts hold together. -/
theorem tokenize_toText_iff {text : String} (among : token ∈ tokenize text)
    (composite : token.texts ≠ []) (noNul : ∀ text ∈ token.texts, '\x00' ∉ text.toList) :
    tokenize token.toText = [token, .endOfFile] ↔ token.holdsTogether = true := by
  rcases exists_readAt_of_mem among with rfl | ⟨c, rest, read⟩
  · exact absurd rfl composite
  · cases assembled_of_readAt read composite with
    | hash named => exact tokenize_readHash_iff named noNul
    | url address =>
        rw [tokenize_url_iff, holdsTogether, String.toList_ofList, List.all_eq_true]
        simp only [Bool.not_eq_true']
    | numeric number => exact tokenize_readNumeric_iff number noNul

/-- A unit that was spelled with an escape is written without it. -/
theorem tokenize_toText_unit :
    tokenize (dimension (NumberParts.numeric ⟨['-'], [], ['.', '5'], []⟩) "em").toText =
      [dimension (NumberParts.numeric ⟨['-'], [], ['.', '5'], []⟩) "em", endOfFile] := by
  have among : dimension (NumberParts.numeric ⟨['-'], [], ['.', '5'], []⟩) "em" ∈
      tokenize "1 -.5\\65 m" := by
    decide +kernel
  exact (tokenize_toText_iff among (by decide) (by decide +kernel)).mpr (by decide +kernel)

/-- A unit is taken for an exponent, an identifier for a name that is none, and an escaped line
end spoils its address. -/
theorem tokenize_toText_glued :
    (dimension (NumberParts.numeric ⟨[], ['1'], [], []⟩) "e3" ∈ tokenize "1\\65 3" ∧
      tokenize (dimension (NumberParts.numeric ⟨[], ['1'], [], []⟩) "e3").toText =
        [number (NumberParts.numeric ⟨[], ['1'], [], ['e', '3']⟩), endOfFile]) ∧
    (hash "1" .id ∈ tokenize "#\\31 " ∧
      tokenize (hash "1" .id).toText = [hash "1" .unrestricted, endOfFile]) ∧
    (url "\n" ∈ tokenize "url(\\a )" ∧
      tokenize (url "\n").toText = [badUrl, endOfFile]) := by
  decide +kernel

end SelectorTree.Token
