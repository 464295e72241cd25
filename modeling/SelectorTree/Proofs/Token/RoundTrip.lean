import SelectorTree.Proofs.Token.Writing

/-!
# The tokens of a text are read back from what is written

The tokens of a text are written one after the other without separators.  Read from its end to
its start, the written text looks like the first one as far as the lexer looks ahead, and has
the same tokens.
-/

namespace SelectorTree.Token

open Text

variable {c : Char} {chars rest next : List Char}

theorem readAt_suffix (c : Char) (rest : List Char) : (readAt c rest).2 <:+ c :: rest := by
  have tail : rest <:+ c :: rest := List.suffix_cons c rest
  have here := read_readAt c rest
  generalize readAt c rest = read at here ⊢
  cases here with
  | blank => exact (List.dropWhile_suffix isTokenBlank).trans tail
  | punctuation | delim => exact tail
  | quote => exact (readString_suffix c rest).trans tail
  | hash | atKeyword => exact (readName_suffix isTokenBlank rest).trans tail
  | numeric =>
      have parts := NumberParts.split_append (c :: rest)
      exact (readNumeric_suffix (c :: rest)).trans ⟨_, parts⟩
  | commentClose behind => exact List.suffix_append ['-', '-', '>'] behind
  | commentOpen behind => exact List.suffix_append ['<', '!', '-', '-'] behind
  | named => exact (readNamed_suffix (c :: rest)).trans (readName_suffix isTokenBlank (c :: rest))

/-! ## A whole text -/

/-- One text is read like another and may stand in its place. -/
structure ReadsLike (written chars : List Char) : Prop where
  reads : readAll written = readAll chars
  alike : Alike 3 written chars
  spaced : keepLastBlank written = written
  uniform : ∀ c ∈ written, c ≠ '\r' ∧ c ≠ '\x0c'

/-- What is read like the rest of a text is read like it behind the token before it. -/
theorem ReadsLike.cons (clean : Clean (c :: rest)) (whole : IsWhole (readAt c rest).1)
    (behind : ReadsLike next (readAt c rest).2) :
    ReadsLike ((readAt c rest).1.chars ++ next) (c :: rest) := by
  have back := readsBack_readAt clean whole behind.alike behind.spaced
  refine ⟨?_, back.alike, back.spaced, List.forall_mem_append.mpr ⟨back.uniform, behind.uniform⟩⟩
  have uncommented : ¬['/', '*'] <+: c :: rest := fun begins => clean.uncommented begins.isInfix
  have noComment : ¬['/', '*'] <+: (readAt c rest).1.chars ++ next := by
    rwa [← List.isPrefixOf_iff_prefix, back.alike.isPrefixOf_eq rfl (by decide),
      List.isPrefixOf_iff_prefix]
  obtain ⟨first, inner, written, read⟩ := back.reads
  rw [written] at noComment ⊢
  rw [readAll_of_uncommented noComment, readAll_of_uncommented uncommented, read, behind.reads]

/-- The tokens of a text are written so that they are read again, by induction on the tokens. -/
theorem readsLike_write (clean : Clean chars) (whole : ∀ token ∈ readAll chars, IsWhole token) :
    ReadsLike ((readAll chars).flatMap Token.chars) chars := by
  induction bound : chars.length using Nat.strong_induction_on generalizing chars with
  | h length ih =>
      cases chars with
      | nil =>
          rw [readAll_nil]
          exact ⟨rfl, .nil, rfl, by simp [Token.chars]⟩
      | cons c rest =>
          rw [readAll_of_uncommented fun begins => clean.uncommented begins.isInfix] at whole ⊢
          obtain ⟨here, others⟩ := List.forall_mem_cons.mp whole
          have shorter := readAt_length_le c rest
          have behind := ih _ (by rw [← bound, List.length_cons]; omega)
            (clean.suffix (readAt_suffix c rest)) others rfl
          exact .cons clean here behind

/-! ## Line ends -/

theorem mem_uniformLines (member : c ∈ uniformLines chars) :
    (c = '\n' ∨ c ∈ chars) ∧ c ≠ '\r' ∧ c ≠ '\x0c' := by
  fun_induction uniformLines chars with
  | case1 rest ih =>
      rcases List.mem_cons.mp member with rfl | later
      · exact ⟨Or.inl rfl, by decide⟩
      · exact ⟨(ih later).1.imp_right fun inside => by simp [inside], (ih later).2⟩
  | case2 first rest _ ih =>
      rcases List.mem_cons.mp member with here | later
      · split at here
        · next lineEnd => simp [here]
        · next ordinary => exact ⟨Or.inr (by simp [here]), by simpa [here] using ordinary⟩
      · exact ⟨(ih later).1.imp_right (List.mem_cons_of_mem first), (ih later).2⟩
  | case3 => cases member

/-- What contains no line end stands in the text as it was. -/
theorem prefix_of_uniformLines {front : List Char} (inLine : '\n' ∉ front)
    (begins : front <+: uniformLines chars) : front <+: chars := by
  induction front generalizing chars with
  | nil => exact List.nil_prefix
  | cons d front ih =>
      rw [List.mem_cons, not_or] at inLine
      unfold uniformLines at begins
      split at begins
      · exact absurd (List.cons_prefix_cons.mp begins).1.symm inLine.1
      · obtain ⟨same, behind⟩ := List.cons_prefix_cons.mp begins
        split at same
        · exact absurd same.symm inLine.1
        · exact List.cons_prefix_cons.mpr ⟨same, ih inLine.2 behind⟩
      · exact begins

theorem infix_of_uniformLines {part : List Char} (inLine : '\n' ∉ part)
    (inside : part <:+: uniformLines chars) : part <:+: chars := by
  fun_induction uniformLines chars with
  | case1 rest ih =>
      rcases List.infix_cons_iff.mp inside with begins | later
      · have whole : part <+: '\r' :: '\n' :: rest := prefix_of_uniformLines inLine begins
        exact whole.isInfix
      · exact List.infix_cons (List.infix_cons (ih later))
  | case2 first rest ordinary ih =>
      rcases List.infix_cons_iff.mp inside with begins | later
      · rw [← uniformLines.eq_2 first rest ordinary] at begins
        exact (prefix_of_uniformLines inLine begins).isInfix
      · exact List.infix_cons (ih later)
  | case3 => exact inside

theorem clean_uniformLines (plain : Plain chars) (noNul : ∀ c ∈ chars, c.toNat ≠ 0)
    (uncommented : ¬['/', '*'] <:+: chars) : Clean (uniformLines chars) where
  plain member := (mem_uniformLines member).1.elim (by decide) plain
  noNul c member := by
    rcases (mem_uniformLines member).1 with rfl | inside
    · decide
    · exact noNul c inside
  uniform c member := (mem_uniformLines member).2
  uncommented opens := uncommented (infix_of_uniformLines (by decide) opens)

/-- A text without backslashes, NULs and comments, of which no token was spoilt, has the same
tokens as the text that is written for them. -/
theorem tokenize_write {text : String} (plain : '\\' ∉ text.toList) (noNul : '\x00' ∉ text.toList)
    (uncommented : ¬['/', '*'] <:+: text.toList)
    (whole : ∀ token ∈ tokenize text, token ≠ .badString ∧ token ≠ .badUrl) :
    tokenize (write (tokenize text)) = tokenize text := by
  have clean := clean_uniformLines plain
    (fun c member zero => noNul ((Char.toNat_inj.mp zero : c = '\x00') ▸ member)) uncommented
  have same := readsLike_write clean whole
  rw [write, tokenize, String.toList_ofList, tokenize, uniformLines_eq_self same.uniform]
  exact same.reads

/-- Addresses, strings and blanks are written anew, and read as before. -/
theorem tokenize_write_mixed :
    write (tokenize "@x  #a\x7bb:URL( c) -1.5e3px +.5%;d:url(  \x27e\"\x27)\x7d<!---->") =
        "@x #a\x7bb:url(c) -1.5e3px +.5%;d:url( \"e\\\"\")\x7d<!---->" ∧
      tokenize (write (tokenize
          "@x  #a\x7bb:URL( c) -1.5e3px +.5%;d:url(  \x27e\"\x27)\x7d<!---->")) =
        tokenize "@x  #a\x7bb:URL( c) -1.5e3px +.5%;d:url(  \x27e\"\x27)\x7d<!---->" :=
  ⟨by decide +kernel,
    tokenize_write (by decide) (by decide) (by decide +kernel) (by decide +kernel)⟩

end SelectorTree.Token
