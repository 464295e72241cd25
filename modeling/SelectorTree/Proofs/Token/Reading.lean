import SelectorTree.Proofs.Text.Quoting
import SelectorTree.Token.Lexer
import SelectorTree.Token.Printer

/-!
# Tokens are read back as they were written

Written identifiers and strings, punctuation and single blanks are read one after the
other as the tokens that they were written for.  What stands behind an identifier must
not go on with its name, and must not make a function or the end of a comment of it.
-/

namespace SelectorTree.Token

open Text

variable {c : Char} {chars name text rest : List Char}

/-! ## Lines and comments -/

theorem uniformLines_eq_self (plain : ∀ c ∈ chars, c ≠ '\r' ∧ c ≠ '\x0c') :
    uniformLines chars = chars := by
  induction chars with
  | nil => rfl
  | cons c rest ih =>
      obtain ⟨⟨notReturn, notFeed⟩, others⟩ := List.forall_mem_cons.mp plain
      rw [uniformLines, ih others, if_neg (by simp [notReturn, notFeed])]
      intro _ same
      exact absurd same notReturn

theorem uniform_of_not_isControl (ordinary : isControl c = false) : c ≠ '\r' ∧ c ≠ '\x0c' := by
  constructor <;> rintro rfl <;> cases ordinary

theorem tokenize_of_not_isControl {text : String}
    (ordinary : ∀ c ∈ text.toList, isControl c = false) : tokenize text = readAll text.toList := by
  rw [tokenize, uniformLines_eq_self fun c member => uniform_of_not_isControl (ordinary c member)]

theorem skipComments_eq_self (noComment : ¬['/', '*'] <+: chars) : skipComments chars = chars := by
  rw [skipComments]
  rintro rest rfl
  exact noComment (List.prefix_append ['/', '*'] rest)

theorem readAll_nil : readAll [] = [.endOfFile] := by
  have skipped := @skipComments_eq_self [] (by simp)
  rw [readAll]
  split
  · rfl
  · next remaining =>
      rw [skipped] at remaining
      cases remaining

theorem readAll_of_uncommented (noComment : ¬['/', '*'] <+: c :: rest) :
    readAll (c :: rest) = (readAt c rest).1 :: readAll (readAt c rest).2 := by
  have skipped := skipComments_eq_self noComment
  rw [readAll]
  split
  · next remaining =>
      rw [skipped] at remaining
      cases remaining
  · next remaining =>
      rw [skipped] at remaining
      cases remaining
      rfl

theorem readAll_cons (noComment : c ≠ '/') :
    readAll (c :: rest) = (readAt c rest).1 :: readAll (readAt c rest).2 :=
  readAll_of_uncommented fun begins => noComment (List.cons_prefix_cons.mp begins).1.symm

/-! ## Tokens of one character -/

theorem readAt_punctuation {token : Token} (known : ofPunctuation? c = some token) :
    readAt c rest = (token, rest) := by
  have visible : isTokenBlank c = false := by
    unfold ofPunctuation? at known
    split at known <;> first | rfl | cases known
  simp [readAt, visible, known]

theorem readAll_punctuation {token : Token} (known : ofPunctuation? c = some token) :
    readAll (c :: rest) = token :: readAll rest := by
  have noComment : c ≠ '/' := by
    rintro rfl
    cases known
  rw [readAll_cons noComment, readAt_punctuation known]

theorem readAll_space (visible : isTokenBlank c = false) :
    readAll (' ' :: c :: rest) = .whitespace :: readAll (c :: rest) := by
  have blank : isTokenBlank ' ' = true := rfl
  have read : readAt ' ' (c :: rest) = (.whitespace, c :: rest) := by
    rw [readAt, if_pos blank, List.dropWhile_cons, if_neg (Bool.eq_false_iff.mp visible)]
  rw [readAll_cons (by decide), read]

theorem readAll_point (notDigit : c.isDigit = false) :
    readAll ('.' :: c :: rest) = .delim '.' :: readAll (c :: rest) := by
  have read : readAt '.' (c :: rest) = (.delim '.', c :: rest) := by
    simp [readAt, isTokenBlank, ofPunctuation?, NumberParts.starts, NumberParts.splitSign,
      NumberParts.isSign, NumberParts.startsDigit, notDigit, startsIdentifier, isNameStart,
      startsEscape]
  rw [readAll_cons (by decide), read]

/-! ## Identifiers -/

/-- The characters that an identifier may begin with. -/
def leads (c : Char) : Bool := c == '-' || c == '\\' || isNameStart c

theorem eq_backslash_of_startsEscape (escape : startsEscape (c :: rest) = true) : c = '\\' := by
  unfold startsEscape at escape
  split at escape
  · next same => exact (List.cons.inj same).1
  · cases escape

theorem leads_of_startsIdentifier (starts : startsIdentifier (c :: rest) = true) :
    leads c = true := by
  rw [startsIdentifier] at starts
  split at starts
  · next hyphen => simp [leads, beq_iff_eq.mp hyphen]
  · rcases Bool.or_eq_true _ _ ▸ starts with start | escape
    · simp [leads, start]
    · simp [leads, eq_backslash_of_startsEscape escape]

theorem ofPunctuation?_of_leads (lead : leads c = true) : ofPunctuation? c = none := by
  unfold ofPunctuation?
  split <;> first | rfl | cases lead

theorem ne_of_leads {other : Char} (lead : leads c = true) (foreign : leads other = false) :
    c ≠ other := by
  rintro rfl
  rw [lead] at foreign
  cases foreign

theorem not_isDigit_of_leads (lead : leads c = true) : c.isDigit = false := by
  rw [← Bool.not_eq_true]
  intro digit
  rw [isDigit_iff] at digit
  simp only [leads, Bool.or_eq_true, beq_iff_eq, isNameStart_iff, ← Char.toNat_inj] at lead
  simp at lead
  omega

/-- No number begins with such a character, be it behind a sign. -/
theorem not_starts_of_leads
    (lead : ∀ first ∈ (NumberParts.splitSign chars).2.head?, leads first = true) :
    NumberParts.starts chars = false := by
  rw [NumberParts.starts]
  split
  · next unsigned =>
      have point := lead '.' (by simp [unsigned])
      cases point
  · cases unsigned : (NumberParts.splitSign chars).2 with
    | nil => rfl
    | cons first rest => exact not_isDigit_of_leads (lead first (by simp [unsigned]))

theorem not_starts_of_startsIdentifier (starts : startsIdentifier chars = true) :
    NumberParts.starts chars = false := by
  apply not_starts_of_leads
  cases chars with
  | nil => cases starts
  | cons c rest =>
      by_cases hyphen : c = '-'
      · subst hyphen
        cases rest with
        | nil => cases starts
        | cons second rest =>
            have signed : NumberParts.splitSign ('-' :: second :: rest) =
                (['-'], second :: rest) := rfl
            simp only [startsIdentifier, beq_self_eq_true, if_true, List.head?_cons,
              Option.any_some] at starts
            have lead : leads second = true := by
              rcases Bool.or_eq_true _ _ ▸ starts with start | escape
              · rcases Bool.or_eq_true _ _ ▸ start with start | hyphen
                · simp [leads, start]
                · simp [leads, beq_iff_eq.mp hyphen]
              · simp [leads, eq_backslash_of_startsEscape escape]
            simpa [signed] using lead
      · have lead := leads_of_startsIdentifier starts
        have noPlus : c ≠ '+' := ne_of_leads lead rfl
        have unsigned : NumberParts.splitSign (c :: rest) = ([], c :: rest) := by
          simp [NumberParts.splitSign, NumberParts.isSign, hyphen, noPlus]
        simpa [unsigned] using lead

theorem readAt_of_startsIdentifier (starts : startsIdentifier (c :: rest) = true)
    (noClose : ¬['-', '-', '>'] <+: c :: rest) : readAt c rest = readNamed (c :: rest) := by
  have lead := leads_of_startsIdentifier starts
  have visible : isTokenBlank c = false := by
    simp [isTokenBlank, ne_of_leads lead (show leads '\n' = false from rfl),
      ne_of_leads lead (show leads '\t' = false from rfl),
      ne_of_leads lead (show leads ' ' = false from rfl)]
  have noNumber := not_starts_of_startsIdentifier starts
  have noQuote : ¬(c = '"' ∨ c = '\'') := not_or.mpr ⟨ne_of_leads lead rfl, ne_of_leads lead rfl⟩
  have noHash : c ≠ '#' := ne_of_leads lead rfl
  have noAt : c ≠ '@' := ne_of_leads lead rfl
  have noOpen : c ≠ '<' := ne_of_leads lead rfl
  have noDash : ¬(c = '-' ∧ ['-', '>'].isPrefixOf rest = true) := by
    rintro ⟨rfl, dash⟩
    exact noClose (List.cons_prefix_cons.mpr ⟨rfl, List.isPrefixOf_iff_prefix.mp dash⟩)
  simp only [readAt, visible, ofPunctuation?_of_leads lead, if_neg noQuote, noHash, noAt, noNumber,
    if_neg noDash, noOpen, starts, false_and, Bool.false_eq_true, if_false, if_true]

/-- A character that ends an identifier and goes into no token with it. -/
def endsName (next : Char) : Bool :=
  !(isNameChar next || next == '\\' || next == '(' || next == '>')

variable {next : Char}

theorem endsName_iff : endsName next = true ↔
    isNameChar next = false ∧ next ≠ '\\' ∧ next ≠ '(' ∧ next ≠ '>' := by
  simp [endsName, and_assoc]

theorem readName_of_endsName (ends : endsName next = true) (blank : Char → Bool) :
    readName blank (next :: rest) = ([], next :: rest) := by
  obtain ⟨unnamed, notBackslash, -, -⟩ := endsName_iff.mp ends
  have noEscape : startsEscape (next :: rest) ≠ true :=
    fun escape => notBackslash (eq_backslash_of_startsEscape escape)
  rw [readName, if_neg (Bool.eq_false_iff.mp unnamed), if_neg noEscape]

/-- What begins a spelled name is the name itself or a backslash. -/
theorem cons_prefix_of_spells {first : Char} {others : List Char} (spells : Spells name text)
    (notBackslash : first ≠ '\\') (begins : first :: others <+: text ++ rest) :
    (text = [] ∧ first :: others <+: rest) ∨
      (isNameChar first = true ∧ ∃ name text', Spells name text' ∧ others <+: text' ++ rest) := by
  cases spells with
  | nil => exact Or.inl ⟨rfl, begins⟩
  | @cons _ name part text' spelling behind =>
      right
      cases spelling with
      | plain named =>
          obtain ⟨rfl, later⟩ := List.cons_prefix_cons.mp begins
          exact ⟨named, name, text', behind, later⟩
      | escaped => exact absurd (List.cons_prefix_cons.mp begins).1 notBackslash
      | coded => exact absurd (List.cons_prefix_cons.mp begins).1 notBackslash

/-- What stands behind an identifier, if anything, ends it. -/
def EndsName (rest : List Char) : Prop := ∀ next ∈ rest.head?, endsName next = true

theorem endsName_cons (ends : endsName next = true) : EndsName (next :: rest) := by
  rintro _ ⟨⟩
  exact ends

theorem EndsName.not_prefix {first : Char} {others : List Char} (ends : EndsName rest)
    (goesOn : endsName first = false) : ¬first :: others <+: rest := by
  rintro ⟨behind, rfl⟩
  rw [ends first rfl] at goesOn
  cases goesOn

/-- A spelled name does not close a comment. -/
theorem not_prefix_of_spells (spells : Spells name text) (ends : EndsName rest) :
    ¬['-', '-', '>'] <+: text ++ rest := by
  intro begins
  rcases cons_prefix_of_spells spells (by decide) begins with ⟨-, here⟩ | ⟨-, _, _, behind, second⟩
  · exact ends.not_prefix rfl here
  rcases cons_prefix_of_spells behind (by decide) second with ⟨-, here⟩ | ⟨-, _, _, behind, third⟩
  · exact ends.not_prefix rfl here
  rcases cons_prefix_of_spells behind (by decide) third with ⟨-, here⟩ | ⟨named, -⟩
  · exact ends.not_prefix rfl here
  · cases named

theorem readNamed_of_readName (read : readName isTokenBlank chars = (name, rest))
    (noCall : rest.head? ≠ some '(') : readNamed chars = (.ident (String.ofList name), rest) := by
  simp only [readNamed, read]
  split
  · exact absurd rfl noCall
  · rfl

theorem EndsName.readName_eq (ends : EndsName rest) (blank : Char → Bool) :
    readName blank rest = ([], rest) := by
  cases rest with
  | nil => rw [readName]
  | cons next rest => exact readName_of_endsName (ends next rfl) blank

/-- A written identifier is read up to its end, be it the end of the input. -/
theorem readAll_writeIdentifier_append (named : name ≠ []) (noNul : ∀ c ∈ name, c.toNat ≠ 0)
    (ends : EndsName rest) :
    readAll (writeIdentifier name ++ rest) = .ident (String.ofList name) :: readAll rest := by
  have starts := startsIdentifier_writeIdentifier named noNul rest
  have spells := spells_writeIdentifier noNul
  have noClose := not_prefix_of_spells spells ends
  have read : readName isTokenBlank (writeIdentifier name ++ rest) = (name, rest) := by
    rw [spells.readName_append rfl, ends.readName_eq, List.append_nil]
  have noCall : rest.head? ≠ some '(' := fun head => by cases ends '(' head
  generalize writeIdentifier name ++ rest = chars at starts noClose read ⊢
  cases chars with
  | nil => cases starts
  | cons c behind =>
      have noComment : c ≠ '/' := ne_of_leads (leads_of_startsIdentifier starts) rfl
      rw [readAll_cons noComment, readAt_of_startsIdentifier starts noClose,
        readNamed_of_readName read noCall]

theorem readAll_writeIdentifier (named : name ≠ []) (noNul : ∀ c ∈ name, c.toNat ≠ 0)
    (ends : endsName next = true) :
    readAll (writeIdentifier name ++ next :: rest) =
      .ident (String.ofList name) :: readAll (next :: rest) :=
  readAll_writeIdentifier_append named noNul (endsName_cons ends)

/-- A point before a written identifier begins a class. -/
theorem readAll_writeClass (named : name ≠ []) (noNul : ∀ c ∈ name, c.toNat ≠ 0)
    (ends : endsName next = true) :
    readAll ('.' :: (writeIdentifier name ++ next :: rest)) =
      .delim '.' :: .ident (String.ofList name) :: readAll (next :: rest) := by
  have starts := startsIdentifier_writeIdentifier named noNul (next :: rest)
  rw [← readAll_writeIdentifier named noNul ends]
  generalize writeIdentifier name ++ next :: rest = chars at starts ⊢
  cases chars with
  | nil => cases starts
  | cons c behind =>
      exact readAll_point (not_isDigit_of_leads (leads_of_startsIdentifier starts))

/-! ## Strings -/

theorem writeQuoted_append (text rest : List Char) :
    writeQuoted text ++ rest = '"' :: (text.flatMap writeQuotedChar ++ '"' :: rest) := by
  simp [writeQuoted]

theorem readAt_writeQuoted (noNul : ∀ c ∈ text, c.toNat ≠ 0) :
    readAt '"' (text.flatMap writeQuotedChar ++ '"' :: rest) =
      (.string (String.ofList text), rest) := by
  have body : readQuoted .stylesheet '"' (text.flatMap writeQuotedChar ++ '"' :: rest) =
      (text, .closed, rest) := readQuoted_writeQuoted rfl noNul
  simp [readAt, isTokenBlank, ofPunctuation?, readString, body]

theorem readAll_writeQuoted (noNul : ∀ c ∈ text, c.toNat ≠ 0) :
    readAll (writeQuoted text ++ rest) = .string (String.ofList text) :: readAll rest := by
  rw [writeQuoted_append, readAll_cons (by decide), readAt_writeQuoted noNul]

/-! ## The other ways in which a token begins -/

theorem eq_of_isTokenBlank (blank : isTokenBlank c = true) : c = '\n' ∨ c = '\t' ∨ c = ' ' := by
  simpa [isTokenBlank, or_assoc] using blank

theorem eq_of_isQuote (quote : isQuote c = true) : c = '\'' ∨ c = '"' := by
  simpa [isQuote] using quote

theorem not_isQuote_of_isTokenBlank (blank : isTokenBlank c = true) : isQuote c = false := by
  rcases eq_of_isTokenBlank blank with rfl | rfl | rfl <;> rfl

theorem readAt_blank (blank : isTokenBlank c = true) :
    readAt c rest = (.whitespace, rest.dropWhile isTokenBlank) := by
  rw [readAt, if_pos blank]

theorem readAt_quote (quote : isQuote c = true) : readAt c rest = readString c rest := by
  rcases eq_of_isQuote quote with rfl | rfl <;> rfl

theorem readAt_hash (named : startsName rest = true) : readAt '#' rest = readHash rest := by
  simp [readAt, isTokenBlank, ofPunctuation?, named]

theorem readAt_atKeyword (starts : startsIdentifier rest = true) :
    readAt '@' rest = readAtKeyword rest := by
  simp [readAt, isTokenBlank, ofPunctuation?, starts]

theorem ne_of_starts {other : Char} (number : NumberParts.starts (c :: rest) = true)
    (foreign : NumberParts.starts (other :: rest) = false) : c ≠ other := by
  rintro rfl
  rw [number] at foreign
  cases foreign

theorem readAt_of_starts (number : NumberParts.starts (c :: rest) = true) :
    readAt c rest = readNumeric (c :: rest) := by
  have visible : isTokenBlank c = false := by
    rw [← Bool.not_eq_true]
    intro blank
    rcases eq_of_isTokenBlank blank with rfl | rfl | rfl <;> cases number
  have noPunctuation : ofPunctuation? c = none := by
    unfold ofPunctuation?
    split <;> first | rfl | cases number
  have noQuote : ¬(c = '"' ∨ c = '\'') :=
    not_or.mpr ⟨ne_of_starts number rfl, ne_of_starts number rfl⟩
  have noHash : c ≠ '#' := ne_of_starts number rfl
  have noAt : c ≠ '@' := ne_of_starts number rfl
  simp only [readAt, visible, noPunctuation, if_neg noQuote, noHash, noAt, number, false_and,
    Bool.false_eq_true, if_false, if_true]

theorem readAt_commentClose : readAt '-' ('-' :: '>' :: rest) = (.commentClose, rest) := rfl

theorem readAt_commentOpen : readAt '<' ('!' :: '-' :: '-' :: rest) = (.commentOpen, rest) := rfl

/-- Whether a character begins no token but itself. -/
def standsAlone (c : Char) (rest : List Char) : Bool :=
  !(isTokenBlank c || (ofPunctuation? c).isSome || isQuote c || (c == '#' && startsName rest) ||
    (c == '@' && startsIdentifier rest) || NumberParts.starts (c :: rest) ||
    (c == '-' && ['-', '>'].isPrefixOf rest) || (c == '<' && ['!', '-', '-'].isPrefixOf rest) ||
    startsIdentifier (c :: rest))

theorem standsAlone_iff : standsAlone c rest = true ↔
    ¬isTokenBlank c = true ∧ ofPunctuation? c = none ∧ ¬isQuote c = true ∧
      ¬(c = '#' ∧ startsName rest = true) ∧ ¬(c = '@' ∧ startsIdentifier rest = true) ∧
      ¬NumberParts.starts (c :: rest) = true ∧ ¬(c = '-' ∧ ['-', '>'].isPrefixOf rest = true) ∧
      ¬(c = '<' ∧ ['!', '-', '-'].isPrefixOf rest = true) ∧
      ¬startsIdentifier (c :: rest) = true := by
  rw [standsAlone, Bool.not_eq_true', ← Bool.not_eq_true]
  simp only [Bool.or_eq_true, not_or, Bool.and_eq_true, beq_iff_eq,
    Option.not_isSome_iff_eq_none, and_assoc]

theorem readAt_of_standsAlone (alone : standsAlone c rest = true) :
    readAt c rest = (.delim c, rest) := by
  obtain ⟨visible, noPunctuation, unquoted, noHash, noAt, noNumber, noClose, noOpen, noName⟩ :=
    standsAlone_iff.mp alone
  have noQuote : ¬(c = '"' ∨ c = '\'') := by
    rintro (rfl | rfl) <;> exact unquoted rfl
  rw [readAt, if_neg visible, noPunctuation]
  simp only [if_neg noQuote, if_neg noHash, if_neg noAt, if_neg noNumber, if_neg noClose,
    if_neg noOpen, if_neg noName]

/-- The ways in which a token is read, by what it begins with. -/
inductive ReadAt : Char → List Char → Token × List Char → Prop where
  | blank {c : Char} {rest : List Char} (blank : isTokenBlank c = true) :
      ReadAt c rest (.whitespace, rest.dropWhile isTokenBlank)
  | punctuation {c : Char} {rest : List Char} {token : Token}
      (known : ofPunctuation? c = some token) : ReadAt c rest (token, rest)
  | quote {c : Char} {rest : List Char} (quote : isQuote c = true) :
      ReadAt c rest (readString c rest)
  | hash {rest : List Char} (named : startsName rest = true) : ReadAt '#' rest (readHash rest)
  | atKeyword {rest : List Char} (starts : startsIdentifier rest = true) :
      ReadAt '@' rest (readAtKeyword rest)
  | numeric {c : Char} {rest : List Char} (number : NumberParts.starts (c :: rest) = true) :
      ReadAt c rest (readNumeric (c :: rest))
  | commentClose (rest : List Char) : ReadAt '-' ('-' :: '>' :: rest) (.commentClose, rest)
  | commentOpen (rest : List Char) : ReadAt '<' ('!' :: '-' :: '-' :: rest) (.commentOpen, rest)
  | named {c : Char} {rest : List Char} (starts : startsIdentifier (c :: rest) = true)
      (noClose : ¬['-', '-', '>'] <+: c :: rest) : ReadAt c rest (readNamed (c :: rest))
  | delim {c : Char} {rest : List Char} (alone : standsAlone c rest = true) :
      ReadAt c rest (.delim c, rest)

theorem read_readAt (c : Char) (rest : List Char) : ReadAt c rest (readAt c rest) := by
  by_cases blank : isTokenBlank c = true
  · rw [readAt_blank blank]
    exact .blank blank
  cases known : ofPunctuation? c with
  | some token =>
      rw [readAt_punctuation known]
      exact .punctuation known
  | none =>
  by_cases quote : isQuote c = true
  · rw [readAt_quote quote]
    exact .quote quote
  by_cases hash : c = '#' ∧ startsName rest = true
  · obtain ⟨rfl, named⟩ := hash
    rw [readAt_hash named]
    exact .hash named
  by_cases atKeyword : c = '@' ∧ startsIdentifier rest = true
  · obtain ⟨rfl, starts⟩ := atKeyword
    rw [readAt_atKeyword starts]
    exact .atKeyword starts
  by_cases number : NumberParts.starts (c :: rest) = true
  · rw [readAt_of_starts number]
    exact .numeric number
  by_cases close : c = '-' ∧ ['-', '>'].isPrefixOf rest = true
  · obtain ⟨rfl, dash⟩ := close
    obtain ⟨behind, rfl⟩ := List.isPrefixOf_iff_prefix.mp dash
    exact .commentClose behind
  by_cases opening : c = '<' ∧ ['!', '-', '-'].isPrefixOf rest = true
  · obtain ⟨rfl, mark⟩ := opening
    obtain ⟨behind, rfl⟩ := List.isPrefixOf_iff_prefix.mp mark
    exact .commentOpen behind
  by_cases starts : startsIdentifier (c :: rest) = true
  · have noClose : ¬['-', '-', '>'] <+: c :: rest := fun begins => by
      obtain ⟨hyphen, dash⟩ := List.cons_prefix_cons.mp begins
      exact close ⟨hyphen.symm, List.isPrefixOf_iff_prefix.mpr dash⟩
    rw [readAt_of_startsIdentifier starts noClose]
    exact .named starts noClose
  have alone : standsAlone c rest = true := standsAlone_iff.mpr
    ⟨blank, known, quote, hash, atKeyword, number, close, opening, starts⟩
  rw [readAt_of_standsAlone alone]
  exact .delim alone

end SelectorTree.Token
