import SelectorTree.Proofs.Text.Trimming
import SelectorTree.Proofs.Token.Lookahead

/-!
# Each token is read back before what looks alike

A token that is read from a text in which every character means itself is written and read
again.  Most tokens are written as they stood.  Blanks become one space, strings get double
quotes, addresses escapes, and what was left open is closed; that does not change how the text
looks to the token before it, so that neighbours neither join nor break.
-/

namespace SelectorTree.Token

open Text

variable {c : Char} {token : Token} {chars rest behind next name : List Char}

/-- Every character means itself: none is escaped, replaced or part of a comment. -/
structure Clean (chars : List Char) : Prop where
  plain : Plain chars
  noNul : ∀ c ∈ chars, c.toNat ≠ 0
  uniform : ∀ c ∈ chars, c ≠ '\r' ∧ c ≠ '\x0c'
  uncommented : ¬['/', '*'] <:+: chars

theorem Clean.suffix (clean : Clean chars) (within : rest <:+ chars) : Clean rest where
  plain := clean.plain.suffix within
  noNul c member := clean.noNul c (within.subset member)
  uniform c member := clean.uniform c (within.subset member)
  uncommented inside := clean.uncommented (inside.trans within.isInfix)

theorem Clean.tail (clean : Clean (c :: rest)) : Clean rest :=
  clean.suffix (List.suffix_cons c rest)

/-! ## Blanks -/

theorem dropWhile_of_visible (visible : chars.head?.any isTokenBlank = false) :
    chars.dropWhile isTokenBlank = chars := by
  cases chars with
  | nil => rfl
  | cons c chars => exact List.dropWhile_cons_of_neg (Bool.eq_false_iff.mp visible)

theorem keepLastBlank_of_visible (visible : chars.head?.any isTokenBlank = false) :
    keepLastBlank chars = chars := by
  match chars, visible with
  | [], _ => rfl
  | [_], _ => rfl
  | first :: second :: rest, visible =>
      rw [List.head?_cons, Option.any_some] at visible
      simp [keepLastBlank, visible]

theorem keepLastBlank_cons_of_visible (visible : rest.head?.any isTokenBlank = false) :
    keepLastBlank (c :: rest) = c :: rest := by
  cases rest with
  | nil => rfl
  | cons second rest =>
      rw [List.head?_cons, Option.any_some] at visible
      simp [keepLastBlank, visible]

/-- Behind a blank that was kept there is none. -/
theorem visible_of_keepLastBlank (spaced : keepLastBlank (c :: rest) = c :: rest)
    (blank : isTokenBlank c = true) : rest.head?.any isTokenBlank = false := by
  cases rest with
  | nil => rfl
  | cons second rest =>
      rw [List.head?_cons, Option.any_some, ← Bool.not_eq_true]
      intro both
      have shorter := (keepLastBlank_suffix (second :: rest)).length_le
      rw [keepLastBlank, blank, both, Bool.and_self, if_pos rfl] at spaced
      rw [spaced, List.length_cons] at shorter
      exact absurd shorter (Nat.not_succ_le_self _)

theorem visible_of_quoted (quoted : chars.head?.any isQuote = true) :
    chars.head?.any isTokenBlank = false := by
  obtain ⟨c, head, quote⟩ := (Option.any_eq_true _ _).mp quoted
  rw [head, Option.any_some, ← Bool.not_eq_true]
  intro blank
  rw [not_isQuote_of_isTokenBlank blank] at quote
  cases quote

/-! ## A single token -/

/-- The input `chars` begins with `token`, and `rest` is what it leaves. -/
def Reads (token : Token) (chars rest : List Char) : Prop :=
  ∃ c inner, chars = c :: inner ∧ readAt c inner = (token, rest)

/-- Only blanks begin with a blank. -/
theorem Reads.visible (reads : Reads token chars rest) (other : token ≠ .whitespace) :
    chars.head?.any isTokenBlank = false := by
  obtain ⟨c, inner, rfl, read⟩ := reads
  rw [List.head?_cons, Option.any_some, ← Bool.not_eq_true]
  intro blank
  rw [readAt_blank blank] at read
  exact other (Prod.mk.inj read).1.symm

/-- A token that stood at the start of `chars` is written before `next` so that it is read back,
and so that it looks as before. -/
structure ReadsBack (token : Token) (chars next : List Char) : Prop where
  reads : Reads token (token.chars ++ next) next
  alike : Alike 3 (token.chars ++ next) chars
  spaced : keepLastBlank (token.chars ++ next) = token.chars ++ next
  uniform : ∀ c ∈ token.chars, c ≠ '\r' ∧ c ≠ '\x0c'

theorem ReadsBack.of_reads {written : List Char} (joined : token.chars ++ next = written)
    (reads : Reads token written next) (other : token ≠ .whitespace)
    (alike : Alike 3 written chars) (uniform : ∀ c ∈ token.chars, c ≠ '\r' ∧ c ≠ '\x0c') :
    ReadsBack token chars next := by
  subst joined
  exact ⟨reads, alike, keepLastBlank_of_visible (reads.visible other), uniform⟩

/-- What is written as it stood only has to be read. -/
theorem ReadsBack.of_verbatim (clean : Clean chars) (whole : token.chars ++ behind = chars)
    (alike : Alike 3 next behind) (other : token ≠ .whitespace)
    (reads : Reads token (token.chars ++ next) next) : ReadsBack token chars next :=
  .of_reads rfl reads other (whole ▸ alike.append token.chars)
    fun c member => clean.uniform c (whole ▸ List.mem_append_left behind member)

theorem readsBack_whitespace (blank : isTokenBlank c = true)
    (alike : Alike 3 next (rest.dropWhile isTokenBlank)) :
    ReadsBack .whitespace (c :: rest) next := by
  have visible := alike.isTokenBlank_head (any_head?_dropWhile isTokenBlank rest)
  have kept := dropWhile_of_visible visible
  refine ⟨⟨' ', next, rfl, ?_⟩, ?_, keepLastBlank_cons_of_visible visible, ?_⟩
  · rw [readAt_blank rfl, kept]
  · exact .blank rfl blank (kept.symm ▸ alike.mono (by decide))
  · exact List.forall_mem_singleton.mpr (uniform_of_not_isControl rfl)

theorem chars_of_ofPunctuation? (known : ofPunctuation? c = some token) : token.chars = [c] := by
  unfold ofPunctuation? at known
  split at known <;> first | (cases known; rfl) | cases known

theorem readsBack_punctuation (clean : Clean (c :: rest)) (known : ofPunctuation? c = some token)
    (alike : Alike 3 next rest) : ReadsBack token (c :: rest) next := by
  have written := chars_of_ofPunctuation? known
  have other : token ≠ .whitespace := by
    rintro rfl
    unfold ofPunctuation? at known
    split at known <;> cases known
  refine .of_verbatim clean (by rw [written]; rfl) alike other ?_
  exact ⟨c, next, by rw [written]; rfl, readAt_punctuation known⟩

theorem readsBack_delim (clean : Clean (c :: rest)) (alone : standsAlone c rest = true)
    (alike : Alike 3 next rest) : ReadsBack (.delim c) (c :: rest) next := by
  refine .of_verbatim clean rfl alike (by simp) ⟨c, next, rfl, readAt_of_standsAlone ?_⟩
  rw [standsAlone_eq alike clean.plain, alone]

theorem readsBack_commentClose (clean : Clean ('-' :: '-' :: '>' :: rest))
    (alike : Alike 3 next rest) : ReadsBack .commentClose ('-' :: '-' :: '>' :: rest) next :=
  .of_verbatim clean rfl alike (by simp) ⟨'-', '-' :: '>' :: next, rfl, readAt_commentClose⟩

theorem readsBack_commentOpen (clean : Clean ('<' :: '!' :: '-' :: '-' :: rest))
    (alike : Alike 3 next rest) : ReadsBack .commentOpen ('<' :: '!' :: '-' :: '-' :: rest) next :=
  .of_verbatim clean rfl alike (by simp) ⟨'<', '!' :: '-' :: '-' :: next, rfl, readAt_commentOpen⟩

theorem readsBack_string (quote : isQuote c = true) (clean : Clean (c :: rest))
    (whole : (readString c rest).1 ≠ .badString) :
    ReadsBack (readString c rest).1 (c :: rest) next := by
  obtain ⟨body, read⟩ : ∃ body, readQuoted .stylesheet c rest = body := ⟨_, rfl⟩
  obtain ⟨text, ending, behind⟩ := body
  have inLine : ending ≠ .lineFeed := by
    rintro rfl
    simp [readString, read] at whole
  have noNul : ∀ c ∈ text, c.toNat ≠ 0 := fun c member =>
    clean.tail.noNul c ((sublist_of_readQuoted clean.tail.plain read).mem member)
  have token : (readString c rest).1 = .string (String.ofList text) := by
    simp [readString, read, inLine]
  have written : (Token.string (String.ofList text)).chars = writeQuoted text :=
    congrArg writeQuoted String.toList_ofList
  have joined : (Token.string (String.ofList text)).chars ++ next =
      '"' :: (text.flatMap writeQuotedChar ++ '"' :: next) := by
    rw [written, writeQuoted_append]
  rw [token]
  refine .of_reads joined ⟨'"', _, rfl, readAt_writeQuoted noNul⟩ (by simp) (.quote rfl quote) ?_
  intro c member
  rw [written] at member
  exact uniform_of_not_isControl (not_isControl_of_mem_writeQuoted noNul c member)

/-! ## Names -/

/-- What is read as a name from a text without a backslash. -/
structure NameSplit (chars name rest : List Char) : Prop where
  whole : name ++ rest = chars
  named : ∀ c ∈ name, isNameChar c = true
  stops : StopsName rest

theorem exists_nameSplit (plain : Plain chars) : ∃ name rest,
    readName isTokenBlank chars = (name, rest) ∧ NameSplit chars name rest :=
  ⟨_, _, readName_of_plain plain, List.takeWhile_append_dropWhile,
    List.all_eq_true.mp List.all_takeWhile, stopsName_dropWhile plain⟩

namespace NameSplit

variable (split : NameSplit chars name rest)
include split

/-- The name is read again before whatever looks alike. -/
theorem readName_append (alike : Alike 3 next rest) :
    readName isTokenBlank (name ++ next) = (name, next) :=
  readName_of_named split.named (alike.stopsName split.stops)

theorem startsIdentifier_name : startsIdentifier name = startsIdentifier chars := by
  rw [← split.whole, startsIdentifier_append_of_plain (plain_of_named split.named) split.stops]

theorem writeIdentifier_eq (starts : startsIdentifier chars = true) :
    writeIdentifier name = name :=
  writeIdentifier_of_named split.named (split.startsIdentifier_name.trans starts)

theorem chars_ident (starts : startsIdentifier chars = true) :
    (Token.ident (String.ofList name)).chars = name := by
  rw [Token.chars, String.toList_ofList, split.writeIdentifier_eq starts]

theorem chars_function (starts : startsIdentifier chars = true) (next : List Char) :
    (Token.function (String.ofList name)).chars ++ next = name ++ '(' :: next := by
  rw [Token.chars, String.toList_ofList, split.writeIdentifier_eq starts, List.append_assoc,
    List.singleton_append]

theorem alike_append (alike : Alike 3 next rest) : Alike 3 (name ++ next) chars :=
  split.whole ▸ alike.append name

end NameSplit

theorem readsBack_hash (clean : Clean ('#' :: rest)) (named : startsName rest = true)
    (alike : Alike 3 next (readHash rest).2) :
    ReadsBack (readHash rest).1 ('#' :: rest) next := by
  obtain ⟨name, behind, read, split⟩ := exists_nameSplit clean.tail.plain
  have equation : readHash rest = (.hash (String.ofList name)
      (if startsIdentifier rest then .id else .unrestricted), behind) := by
    simp only [readHash, read]
  rw [equation] at alike ⊢
  have near := split.alike_append alike
  have written : ∀ kind, (Token.hash (String.ofList name) kind).chars = '#' :: name := by
    intro kind
    rw [Token.chars, String.toList_ofList, writeName_of_named split.named]
  refine .of_verbatim clean ?_ alike (by simp) ?_
  · rw [written, List.cons_append, split.whole]
  · rw [written]
    refine ⟨'#', name ++ next, rfl, ?_⟩
    rw [readAt_hash (by rwa [near.startsName_eq clean.tail.plain]), readHash,
      split.readName_append alike, near.startsIdentifier_eq clean.tail.plain]

theorem readsBack_atKeyword (clean : Clean ('@' :: rest)) (starts : startsIdentifier rest = true)
    (alike : Alike 3 next (readAtKeyword rest).2) :
    ReadsBack (readAtKeyword rest).1 ('@' :: rest) next := by
  obtain ⟨name, behind, read, split⟩ := exists_nameSplit clean.tail.plain
  have equation : readAtKeyword rest = (.atKeyword (String.ofList name), behind) := by
    simp only [readAtKeyword, read]
  rw [equation] at alike ⊢
  have near := split.alike_append alike
  have written : (Token.atKeyword (String.ofList name)).chars = '@' :: name := by
    rw [Token.chars, String.toList_ofList, split.writeIdentifier_eq starts]
  refine .of_verbatim clean ?_ alike (by simp) ?_
  · rw [written, List.cons_append, split.whole]
  · rw [written]
    refine ⟨'@', name ++ next, rfl, ?_⟩
    rw [readAt_atKeyword (by rwa [near.startsIdentifier_eq clean.tail.plain]), readAtKeyword,
      split.readName_append alike]

/-! ## Numbers -/

section numeric

variable {parts : NumberParts} {unit : List Char}

theorem readNumeric_dimension (isNumber : NumberParts.split chars = (parts, behind))
    (starts : startsIdentifier behind = true)
    (read : readName isTokenBlank behind = (unit, rest)) :
    readNumeric chars = (.dimension parts.numeric (String.ofList unit), rest) := by
  simp only [readNumeric, isNumber, starts, if_true, read]

theorem readNumeric_percentage (isNumber : NumberParts.split chars = (parts, '%' :: rest)) :
    readNumeric chars = (.percentage parts.numeric, rest) := by
  have noUnit : startsIdentifier ('%' :: rest) = false := rfl
  simp only [readNumeric, isNumber, noUnit, Bool.false_eq_true, if_false]

theorem readNumeric_number (isNumber : NumberParts.split chars = (parts, rest))
    (noUnit : startsIdentifier rest = false) (noPercent : rest.head? ≠ some '%') :
    readNumeric chars = (.number parts.numeric, rest) := by
  simp only [readNumeric, isNumber, noUnit, Bool.false_eq_true, if_false]
  split
  · exact absurd rfl noPercent
  · rfl

theorem reads_of_readNumeric (number : NumberParts.starts chars = true)
    (read : readNumeric chars = (token, rest)) : Reads token chars rest := by
  cases chars with
  | nil => cases number
  | cons c inner => exact ⟨c, inner, rfl, (readAt_of_starts number).trans read⟩

theorem toList_spelling (parts : NumberParts) :
    parts.numeric.spelling.toList = parts.spelling := String.toList_ofList

/-- A numeric token is read back if what is written behind the number is taken up again. -/
theorem ReadsBack.of_number (following : List Char) (clean : Clean chars)
    (number : NumberParts.starts chars = true)
    (isNumber : NumberParts.split chars = (parts, following ++ rest)) (alike : Alike 3 next rest)
    (written : token.chars = parts.spelling ++ following) (other : token ≠ .whitespace)
    (again : ∀ {chars}, NumberParts.split chars = (parts, following ++ next) →
      readNumeric chars = (token, next)) : ReadsBack token chars next := by
  have joined := NumberParts.split_append chars
  rw [isNumber] at joined
  have near := alike.append following
  have split := @split_of_alike chars (following ++ next) number (by rwa [isNumber])
  rw [isNumber] at split
  refine .of_verbatim clean ?_ alike other ?_
  · rw [written, List.append_assoc, joined]
  · rw [written, List.append_assoc]
    refine reads_of_readNumeric ?_ (again split)
    rw [(near.append parts.spelling).starts_eq, joined, number]

theorem readsBack_numeric (clean : Clean chars) (number : NumberParts.starts chars = true)
    (alike : Alike 3 next (readNumeric chars).2) :
    ReadsBack (readNumeric chars).1 chars next := by
  obtain ⟨parts, behind, isNumber⟩ : ∃ parts behind, NumberParts.split chars = (parts, behind) :=
    ⟨_, _, rfl⟩
  have joined := NumberParts.split_append chars
  rw [isNumber] at joined
  have plain : Plain behind := clean.plain.suffix ⟨_, joined⟩
  cases starts : startsIdentifier behind with
  | true =>
      obtain ⟨unit, rest, read, split⟩ := exists_nameSplit plain
      rw [readNumeric_dimension isNumber starts read] at alike ⊢
      have near := split.alike_append alike
      rw [← split.whole] at isNumber
      refine .of_number unit clean number isNumber alike ?_ (by simp) fun isNumber => ?_
      · rw [Token.chars, toList_spelling, String.toList_ofList, writeName_of_named split.named]
      · exact readNumeric_dimension isNumber (by rwa [near.startsIdentifier_eq plain])
          (split.readName_append alike)
  | false =>
      by_cases percent : behind.head? = some '%'
      · obtain ⟨rest, rfl⟩ := List.head?_eq_some_iff.mp percent
        rw [readNumeric_percentage isNumber] at alike ⊢
        refine .of_number ['%'] clean number isNumber alike ?_ (by simp) readNumeric_percentage
        rw [Token.chars, toList_spelling]
      · rw [readNumeric_number isNumber starts percent] at alike ⊢
        refine .of_number [] clean number isNumber alike ?_ (by simp) fun isNumber => ?_
        · rw [Token.chars, toList_spelling, List.append_nil]
        · exact readNumeric_number isNumber (by rwa [alike.startsIdentifier_eq plain])
            fun head => percent ((alike.head?_eq_iff rfl).mp head)

end numeric

/-! ## Names before a parenthesis -/

theorem readNamed_function (read : readName isTokenBlank chars = (name, '(' :: rest))
    (ordinary : sameLetters (String.ofList name) "url" = false) :
    readNamed chars = (.function (String.ofList name), rest) := by
  simp only [readNamed, read, ordinary, Bool.false_eq_true, if_false]

theorem readNamed_quotedUrl (read : readName isTokenBlank chars = (name, '(' :: rest))
    (url : sameLetters (String.ofList name) "url" = true)
    (quoted : startsQuote (keepLastBlank rest) = true) :
    readNamed chars = (.function (String.ofList name), keepLastBlank rest) := by
  simp only [readNamed, read, url, quoted, if_true]

theorem readNamed_url (read : readName isTokenBlank chars = (name, '(' :: rest))
    (url : sameLetters (String.ofList name) "url" = true)
    (unquoted : startsQuote (keepLastBlank rest) = false) :
    readNamed chars = readUrl (keepLastBlank rest) := by
  simp only [readNamed, read, url, unquoted, Bool.false_eq_true, if_false, if_true]

theorem readName_call (named : ∀ c ∈ name, isNameChar c = true) (rest : List Char) :
    readName isTokenBlank (name ++ '(' :: rest) = (name, '(' :: rest) :=
  readName_of_named named (stopsName_cons rfl (by decide))

theorem startsQuote_cons :
    startsQuote (c :: rest) = (isQuote c || (isTokenBlank c && rest.head?.any isQuote)) := by
  have quote : isQuote = fun c => c == '"' || c == '\'' := funext fun _ => Bool.or_comm _ _
  rw [startsQuote, quote]

/-! ## Addresses -/

section address

variable {address : List Char}

theorem readAddress_paren : readAddress (')' :: rest) = (some [], rest) := by
  rw [readAddress.eq_def]
  simp only [if_true]

theorem readAddress_escape (inLine : c ≠ '\n') (notHex : isHexDigit c = false) :
    readAddress ('\\' :: c :: rest) =
      ((readAddress rest).1.map (c :: ·), (readAddress rest).2) := by
  have escape : startsEscape ('\\' :: c :: rest) = true := bne_iff_ne.mpr inLine
  have blank : isTokenBlank '\\' = false := rfl
  have read : readEscape isTokenBlank (c :: rest) = (c, rest) := by simp [readEscape, notHex]
  rw [readAddress.eq_def]
  simp [blank, escape, read]

theorem readAddress_cons (notClose : c ≠ ')') (visible : isTokenBlank c = false)
    (ordinary : spoilsUrl c = false) (notBackslash : c ≠ '\\') :
    readAddress (c :: rest) = ((readAddress rest).1.map (c :: ·), (readAddress rest).2) := by
  have noEscape : startsEscape (c :: rest) ≠ true :=
    fun escape => notBackslash (eq_backslash_of_startsEscape escape)
  rw [readAddress.eq_def]
  simp [notClose, visible, noEscape, ordinary, notBackslash]

theorem not_isHexDigit_of_escapedInUrl (escaped : escapedInUrl c = true) :
    isHexDigit c = false := by
  rw [← Bool.not_eq_true]
  intro digit
  simp only [escapedInUrl, not_isBlank_of_isHexDigit digit, Bool.or_false, Bool.or_eq_true,
    beq_iff_eq] at escaped
  rcases escaped with (((rfl | rfl) | rfl) | rfl) | rfl <;> cases digit

theorem not_isTokenBlank_of_escapedInUrl (plain : escapedInUrl c = false) :
    isTokenBlank c = false := by
  rw [← Bool.not_eq_true]
  intro blank
  rw [escapedInUrl, isBlank_of_isTokenBlank blank, Bool.or_true] at plain
  cases plain

theorem mem_writeUrlChar {other : Char} (member : other ∈ writeUrlChar c) :
    other = '\\' ∨ other = c := by
  rw [writeUrlChar] at member
  split at member
  · simpa using member
  · exact Or.inr (List.mem_singleton.mp member)

/-- A written character of an address is read as itself, unless it ends a line. -/
theorem readAddress_writeUrlChar (inLine : c ≠ '\n') (rest : List Char) :
    readAddress (writeUrlChar c ++ rest) =
      ((readAddress rest).1.map (c :: ·), (readAddress rest).2) := by
  cases escaped : escapedInUrl c with
  | true =>
      have written : writeUrlChar c = ['\\', c] := by rw [writeUrlChar, if_pos escaped]
      rw [written, List.cons_append, List.singleton_append,
        readAddress_escape inLine (not_isHexDigit_of_escapedInUrl escaped)]
  | false =>
      have written : writeUrlChar c = [c] := by rw [writeUrlChar, escaped]; rfl
      have visible := not_isTokenBlank_of_escapedInUrl escaped
      simp only [escapedInUrl, Bool.or_eq_false_iff, beq_eq_false_iff_ne] at escaped
      obtain ⟨⟨⟨⟨⟨notDouble, notSingle⟩, notOpen⟩, notClose⟩, notBackslash⟩, -⟩ := escaped
      rw [written, List.singleton_append,
        readAddress_cons notClose visible (by simp [spoilsUrl, notDouble, notSingle, notOpen])
          notBackslash]

/-- A written address is read back if it stays in its line. -/
theorem readAddress_writeUrl (inLine : '\n' ∉ address) :
    readAddress (address.flatMap writeUrlChar ++ ')' :: rest) = (some address, rest) := by
  induction address with
  | nil => exact readAddress_paren
  | cons c address ih =>
      rw [List.mem_cons, not_or] at inLine
      rw [List.flatMap_cons, List.append_assoc, readAddress_writeUrlChar (Ne.symm inLine.1),
        ih inLine.2]
      rfl

/-- What is written of an address begins with neither a blank nor a quote. -/
theorem exists_cons_writeUrl (address rest : List Char) : ∃ first others,
    address.flatMap writeUrlChar ++ ')' :: rest = first :: others ∧
      isTokenBlank first = false ∧ isQuote first = false := by
  cases address with
  | nil => exact ⟨')', rest, rfl, rfl, rfl⟩
  | cons c address =>
      cases escaped : escapedInUrl c with
      | true =>
          refine ⟨'\\', c :: (address.flatMap writeUrlChar ++ ')' :: rest), ?_, rfl, rfl⟩
          rw [List.flatMap_cons, writeUrlChar, if_pos escaped]
          rfl
      | false =>
          refine ⟨c, address.flatMap writeUrlChar ++ ')' :: rest, ?_,
            not_isTokenBlank_of_escapedInUrl escaped, ?_⟩
          · rw [List.flatMap_cons, writeUrlChar, escaped]
            rfl
          · simp only [escapedInUrl, Bool.or_eq_false_iff] at escaped
            rw [isQuote, escaped.1.1.1.1.1, escaped.1.1.1.1.2, Bool.or_self]

theorem chars_url (address rest : List Char) : (Token.url (String.ofList address)).chars ++ rest =
    ['u', 'r', 'l'] ++ '(' :: (address.flatMap writeUrlChar ++ ')' :: rest) := by
  simp [Token.chars]

theorem uniform_url (uniform : ∀ c ∈ address, c ≠ '\r' ∧ c ≠ '\x0c') :
    ∀ c ∈ (Token.url (String.ofList address)).chars, c ≠ '\r' ∧ c ≠ '\x0c' := by
  intro c member
  rw [← List.append_nil (Token.chars _), chars_url] at member
  rcases List.mem_append.mp member with letter | member
  · have ordinary : ['u', 'r', 'l'].all (!isControl ·) = true := rfl
    have here := List.all_eq_true.mp ordinary c letter
    exact uniform_of_not_isControl (Bool.not_eq_true' _ ▸ here)
  rcases List.mem_cons.mp member with rfl | member
  · exact uniform_of_not_isControl rfl
  rcases List.mem_append.mp member with written | closing
  · obtain ⟨other, inside, part⟩ := List.mem_flatMap.mp written
    rcases mem_writeUrlChar part with rfl | rfl
    · exact uniform_of_not_isControl rfl
    · exact uniform c inside
  · rw [List.mem_singleton.mp closing]
    exact uniform_of_not_isControl rfl

theorem readNamed_written (address rest : List Char) :
    readNamed (['u', 'r', 'l'] ++ '(' :: (address.flatMap writeUrlChar ++ ')' :: rest)) =
      readUrl (address.flatMap writeUrlChar ++ ')' :: rest) := by
  obtain ⟨first, others, begins, shown, unquoted⟩ := exists_cons_writeUrl address rest
  have visible : (address.flatMap writeUrlChar ++ ')' :: rest).head?.any isTokenBlank = false := by
    rwa [begins]
  have kept := keepLastBlank_of_visible visible
  have letters : ∀ c ∈ ['u', 'r', 'l'], isNameChar c = true := List.all_eq_true.mp rfl
  have read := readName_call letters (address.flatMap writeUrlChar ++ ')' :: rest)
  rw [readNamed_url read (by decide), kept]
  rw [kept, begins, startsQuote_cons, unquoted, shown]
  rfl

theorem dropWhile_writeUrl (address rest : List Char) :
    (address.flatMap writeUrlChar ++ ')' :: rest).dropWhile isTokenBlank =
      address.flatMap writeUrlChar ++ ')' :: rest := by
  obtain ⟨first, others, begins, shown, -⟩ := exists_cons_writeUrl address rest
  rw [begins, List.dropWhile_cons_of_neg (Bool.eq_false_iff.mp shown)]

theorem readNamed_writeUrl (inLine : '\n' ∉ address) (rest : List Char) :
    readNamed (['u', 'r', 'l'] ++ '(' :: (address.flatMap writeUrlChar ++ ')' :: rest)) =
      (.url (String.ofList address), rest) := by
  rw [readNamed_written]
  simp only [readUrl, dropWhile_writeUrl, readAddress_writeUrl inLine]

/-- An address consists of characters of the text, none of them a blank. -/
theorem visible_of_readAddress (plain : Plain chars)
    (read : readAddress chars = (some address, rest)) :
    ∀ c ∈ address, c ∈ chars ∧ isTokenBlank c = false := by
  induction chars generalizing address with
  | nil =>
      rw [readAddress] at read
      cases read
      simp
  | cons c chars ih =>
      obtain ⟨notBackslash, others⟩ := plain_cons.mp plain
      have noEscape : startsEscape (c :: chars) ≠ true := by simp [plain.not_startsEscape]
      rw [readAddress.eq_def] at read
      simp only [if_neg noEscape] at read
      split at read
      · cases read
        simp
      split at read
      · -- What blanks end holds no character, or is spoilt.
        split at read
        · cases read
          simp
        · split at read
          · cases read
            simp
          · cases read
      · next visible =>
          split at read
          · cases read
          · obtain ⟨tail, found⟩ : ∃ tail, readAddress chars = tail := ⟨_, rfl⟩
            obtain ⟨inner, behind⟩ := tail
            rw [found] at read
            cases inner with
            | none => cases read
            | some inner =>
                cases read
                refine List.forall_mem_cons.mpr ⟨⟨List.mem_cons_self, ?_⟩, fun other member => ?_⟩
                · exact Bool.eq_false_iff.mpr visible
                · exact (ih others found other member).imp_left (List.mem_cons_of_mem c)

end address

/-! ## Identifiers and functions -/

/-- What looks like the start of an identifier is read as one. -/
theorem reads_of_readNamed {written : List Char} (plain : Plain chars)
    (starts : startsIdentifier chars = true) (noClose : ¬['-', '-', '>'] <+: chars)
    (near : Alike 3 written chars) (read : readNamed written = (token, rest)) :
    Reads token written rest := by
  rw [← near.startsIdentifier_eq plain] at starts
  rw [← List.isPrefixOf_iff_prefix, ← near.isPrefixOf_eq rfl (by decide),
    List.isPrefixOf_iff_prefix] at noClose
  cases written with
  | nil => cases starts
  | cons c inner => exact ⟨c, inner, rfl, (readAt_of_startsIdentifier starts noClose).trans read⟩

theorem letters_of_sameLetters_url (url : sameLetters (String.ofList name) "url" = true) :
    name.map Char.toLower = ['u', 'r', 'l'] := by
  simpa [sameLetters] using url

/-- A quote that begins an argument, be it behind a blank, is seen in what looks alike. -/
theorem startsQuote_of_alike (alike : Alike 3 next rest) (spaced : keepLastBlank next = next)
    (quoted : startsQuote rest = true) : startsQuote next = true := by
  cases alike with
  | nil => cases quoted
  | quote here => rw [startsQuote_cons, here, Bool.true_or]
  | @letter _ c d left right same behind =>
      rwa [startsQuote_cons, ignoresCase_isTokenBlank.eq_of_sameLetter same,
        ignoresCase_isQuote.eq_of_sameLetter same, behind.any_isQuote, ← startsQuote_cons]
  | @blank _ c d left right here there behind =>
      have visible := visible_of_keepLastBlank spaced here
      rw [startsQuote_cons, not_isQuote_of_isTokenBlank there, there, Bool.false_or,
        Bool.true_and] at quoted
      rw [dropWhile_of_visible visible, dropWhile_of_visible (visible_of_quoted quoted)] at behind
      rw [startsQuote_cons, here, behind.any_isQuote, quoted, Bool.and_self, Bool.or_true]

section named

variable (clean : Clean chars) (starts : startsIdentifier chars = true)
  (noClose : ¬['-', '-', '>'] <+: chars)
include clean starts noClose

theorem readsBack_ident (split : NameSplit chars name rest) (noCall : rest.head? ≠ some '(')
    (alike : Alike 3 next rest) : ReadsBack (.ident (String.ofList name)) chars next := by
  have written := split.chars_ident starts
  refine .of_verbatim clean (by rw [written, split.whole]) alike (by simp) ?_
  rw [written]
  exact reads_of_readNamed clean.plain starts noClose (split.alike_append alike)
    (readNamed_of_readName (split.readName_append alike)
      fun head => noCall ((alike.head?_eq_iff rfl).mp head))

theorem readsBack_function (split : NameSplit chars name ('(' :: rest))
    (ordinary : sameLetters (String.ofList name) "url" = false) (alike : Alike 3 next rest) :
    ReadsBack (.function (String.ofList name)) chars next := by
  have call := alike.append ['(']
  refine .of_verbatim clean ((split.chars_function starts rest).trans split.whole) alike
    (by simp) ?_
  rw [split.chars_function starts next]
  exact reads_of_readNamed clean.plain starts noClose (split.alike_append call)
    (readNamed_function (split.readName_append call) ordinary)

/-- The blanks before a quoted address are reduced to one. -/
theorem readsBack_quotedUrl (split : NameSplit chars name ('(' :: rest))
    (url : sameLetters (String.ofList name) "url" = true)
    (quoted : startsQuote (keepLastBlank rest) = true) (alike : Alike 3 next (keepLastBlank rest))
    (spaced : keepLastBlank next = next) :
    ReadsBack (.function (String.ofList name)) chars next := by
  have length : name.length = 3 := by
    simpa using congrArg List.length (letters_of_sameLetters_url url)
  have near : Alike 3 (name ++ '(' :: next) chars :=
    split.whole ▸ .of_sameLetters rfl length.ge _ _
  have again : readNamed (name ++ '(' :: next) = (.function (String.ofList name), next) := by
    have quote : startsQuote (keepLastBlank next) = true := by
      rw [spaced]
      exact startsQuote_of_alike alike spaced quoted
    rw [readNamed_quotedUrl (readName_call split.named next) url quote, spaced]
  have whole := (split.chars_function starts rest).trans split.whole
  exact .of_reads (split.chars_function starts next)
    (reads_of_readNamed clean.plain starts noClose near again) (by simp) near
    fun c member => clean.uniform c (whole ▸ List.mem_append_left rest member)

theorem readsBack_url (split : NameSplit chars name ('(' :: rest))
    (url : sameLetters (String.ofList name) "url" = true)
    (whole : (readUrl (keepLastBlank rest)).1 ≠ .badUrl) :
    ReadsBack (readUrl (keepLastBlank rest)).1 chars next := by
  have within : (keepLastBlank rest).dropWhile isTokenBlank <:+ chars :=
    (((List.dropWhile_suffix isTokenBlank).trans (keepLastBlank_suffix rest)).trans
      (List.suffix_cons '(' rest)).trans ⟨name, split.whole⟩
  obtain ⟨found, read⟩ :
      ∃ found, readAddress ((keepLastBlank rest).dropWhile isTokenBlank) = found := ⟨_, rfl⟩
  obtain ⟨address?, behind⟩ := found
  cases address? with
  | none => simp [readUrl, read] at whole
  | some address =>
      have token : (readUrl (keepLastBlank rest)).1 = .url (String.ofList address) := by
        simp only [readUrl, read]
      have visible := visible_of_readAddress (clean.plain.suffix within) read
      have inLine : '\n' ∉ address := fun member => by
        cases (visible '\n' member).2
      have letters : ['u', 'r', 'l'].map Char.toLower = name.map Char.toLower :=
        (letters_of_sameLetters_url url).symm
      have near : Alike 3 (['u', 'r', 'l'] ++ '(' :: (address.flatMap writeUrlChar ++ ')' :: next))
          chars := split.whole ▸ .of_sameLetters letters (Nat.le_refl 3) _ _
      rw [token]
      exact .of_reads (chars_url address next)
        (reads_of_readNamed clean.plain starts noClose near (readNamed_writeUrl inLine next))
        (by simp) near
        (uniform_url fun c inside => clean.uniform c (within.subset (visible c inside).1))

theorem readsBack_named (whole : (readNamed chars).1 ≠ .badUrl)
    (alike : Alike 3 next (readNamed chars).2) (spaced : keepLastBlank next = next) :
    ReadsBack (readNamed chars).1 chars next := by
  obtain ⟨name, behind, read, split⟩ := exists_nameSplit clean.plain
  by_cases call : behind.head? = some '('
  · obtain ⟨rest, rfl⟩ := List.head?_eq_some_iff.mp call
    cases url : sameLetters (String.ofList name) "url" with
    | false =>
        rw [readNamed_function read url] at alike ⊢
        exact readsBack_function clean starts noClose split url alike
    | true =>
        cases quoted : startsQuote (keepLastBlank rest) with
        | true =>
            rw [readNamed_quotedUrl read url quoted] at alike ⊢
            exact readsBack_quotedUrl clean starts noClose split url quoted alike spaced
        | false =>
            rw [readNamed_url read url quoted] at whole ⊢
            exact readsBack_url clean starts noClose split url whole
  · rw [readNamed_of_readName read call] at alike ⊢
    exact readsBack_ident clean starts noClose split call alike

end named

/-! ## Every token -/

/-- A token that was not spoilt. -/
def IsWhole (token : Token) : Prop := token ≠ .badString ∧ token ≠ .badUrl

theorem readsBack_readAt (clean : Clean (c :: rest)) (whole : IsWhole (readAt c rest).1)
    (alike : Alike 3 next (readAt c rest).2) (spaced : keepLastBlank next = next) :
    ReadsBack (readAt c rest).1 (c :: rest) next := by
  have here := read_readAt c rest
  generalize readAt c rest = read at whole alike here ⊢
  cases here with
  | blank blank => exact readsBack_whitespace blank alike
  | punctuation known => exact readsBack_punctuation clean known alike
  | quote quote => exact readsBack_string quote clean whole.1
  | hash named => exact readsBack_hash clean named alike
  | atKeyword starts => exact readsBack_atKeyword clean starts alike
  | numeric number => exact readsBack_numeric clean number alike
  | commentClose => exact readsBack_commentClose clean alike
  | commentOpen => exact readsBack_commentOpen clean alike
  | named starts noClose => exact readsBack_named clean starts noClose whole.2 alike spaced
  | delim alone => exact readsBack_delim clean alone alike

end SelectorTree.Token
