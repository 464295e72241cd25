import SelectorTree.Proofs.Element.Classes
import SelectorTree.Proofs.Element.Content
import SelectorTree.Proofs.Selector.Names
import SelectorTree.Proofs.Text.Spelling

/-!
# Elements with plain names

A name that is written without escapes consists of name characters.  Such names pass, in
lower case, from the compounds of a selector to the tags and attributes of elements, and
neither merging nor contents bring in others.
-/

namespace SelectorTree

open Text

namespace Text

/-- A name of name characters, and of one at least. -/
structure PlainName (name : String) : Prop where
  named : name ≠ ""
  chars : ∀ c ∈ name.toList, isNameChar c = true

instance (name : String) : Decidable (PlainName name) :=
  decidable_of_iff (name ≠ "" ∧ name.toList.all isNameChar = true)
    ⟨fun ⟨named, chars⟩ => ⟨named, List.all_eq_true.mp chars⟩,
      fun plain => ⟨plain.named, List.all_eq_true.mpr plain.chars⟩⟩

theorem PlainName.lower {name : String} (plain : PlainName name) : PlainName (lower name) where
  named := by
    intro empty
    apply plain.named
    rw [← String.toList_eq_nil_iff] at empty ⊢
    simpa using empty
  chars := by
    rw [toList_lower, List.forall_mem_map]
    exact fun c member => (isNameChar_toLower c).trans (plain.chars c member)

/-- Without a backslash there are no escapes to read. -/
theorem isNameChar_of_mem_readName (blank : Char → Bool) {chars : List Char}
    (unescaped : '\\' ∉ chars) : ∀ c ∈ (readName blank chars).1, isNameChar c = true := by
  fun_induction readName blank chars with
  | case1 => exact List.forall_mem_nil _
  | case2 c rest nameChar tail ih =>
      exact List.forall_mem_cons.mpr ⟨nameChar, ih (List.not_mem_of_not_mem_cons unescaped)⟩
  | case3 c rest _ escape _ _ ih =>
      have backslash : c = '\\' := by
        unfold startsEscape at escape
        split at escape
        · next same => exact (List.cons.inj same).1
        · cases escape
      exact absurd (by simp [backslash]) unescaped
  | case4 => exact List.forall_mem_nil _

theorem readsGood_plainName {chars : List Char} (unescaped : '\\' ∉ chars) :
    ReadsGood PlainName chars := by
  intro place behind starts
  refine ⟨ofList_readName_ne_empty isBlank starts, ?_⟩
  rw [String.toList_ofList]
  exact isNameChar_of_mem_readName isBlank fun member => unescaped (behind.subset member)

end Text

/-- A compound whose type and attributes have plain names. -/
structure Compound.PlainNames (compound : Compound) : Prop where
  type : ∀ name, compound.type? = some (.name name) → PlainName name
  attributes : ∀ selector ∈ compound.attributes, PlainName selector.name

theorem Compound.Names.plainNames {compound : Compound} (names : compound.Names PlainName) :
    compound.PlainNames :=
  ⟨names.type, names.attributes⟩

/-- An element whose tag and attributes have plain names. -/
structure Element.PlainNames (data : Element) : Prop where
  tag : PlainName data.tag
  attributes : ∀ entry ∈ data.attributes.entries, PlainName entry.1

namespace Element

variable {data target merged : Element}

theorem plainNames_ofTag {tag : String} (plain : PlainName tag) : (ofTag tag).PlainNames :=
  ⟨plain.lower, List.forall_mem_nil _⟩

namespace PlainNames

/-- Only the tag and the attributes have names. -/
theorem congr {other : Element} (names : data.PlainNames) (tag : other.tag = data.tag)
    (attributes : other.attributes = data.attributes) : other.PlainNames :=
  ⟨tag ▸ names.tag, attributes ▸ names.attributes⟩

theorem setAttribute {name : String} (names : data.PlainNames) (plain : PlainName name)
    (value : String) : (data.setAttribute name value).PlainNames where
  tag := names.tag
  attributes entry member := by
    rcases Attributes.mem_insertEntry member with rfl | old
    · exact plain
    · exact names.attributes entry old

theorem addClasses (names : data.PlainNames) (classes : List String) :
    (data.addClasses classes).PlainNames :=
  names.congr (tag_addClasses data classes) (attributes_addClasses data classes)

theorem withContent (names : data.PlainNames) (content : String) :
    (data.withContent content).PlainNames := by
  rw [Element.withContent]
  split
  · exact names.setAttribute (by decide) content
  · exact names.setAttribute (by decide) content
  · exact names.setAttribute (by decide) content
  · exact names.setAttribute (by decide) content
  · exact names.congr rfl rfl
  · exact names

theorem takeId (names : target.PlainNames) (source : Element) :
    (target.takeId source).PlainNames := by
  rw [Element.takeId]
  split
  · exact names.congr rfl rfl
  · exact names

theorem takeKind (names : target.PlainNames) (source : Element) :
    (target.takeKind source).PlainNames := by
  rw [Element.takeKind]
  split
  · exact names.setAttribute (by decide) _
  · exact names

/-- The only attribute that a merge brings in is the `type`. -/
theorem mergeInto (names : target.PlainNames) (success : data.mergeInto target = .ok merged) :
    merged.PlainNames := by
  rw [(mergeInto_eq_ok_iff.mp success).2]
  exact ((names.takeId data).takeKind data).addClasses data.classes

theorem applyAttribute {selector : AttributeSelector} (names : data.PlainNames)
    (plain : PlainName selector.name) : (Descriptor.applyAttribute data selector).PlainNames := by
  simp only [Descriptor.applyAttribute]
  split
  · exact names.congr rfl rfl
  · split
    · exact names.addClasses _
    · exact names.setAttribute plain.lower _

end PlainNames

end Element

/-- The names of an element are those of its compound, in lower case. -/
theorem Compound.PlainNames.elementOf {compound : Compound} {tag : String}
    (names : compound.PlainNames) (typed : Descriptor.tagOf compound.type? = .ok tag) :
    (Descriptor.elementOf tag compound).PlainNames := by
  have plain : PlainName tag := by
    cases type : compound.type? with
    | none =>
        rw [type] at typed
        cases typed
        decide
    | some selector =>
        rw [type] at typed
        cases selector with
        | wildcard => cases typed
        | name written =>
            cases typed
            exact names.type _ type
  refine List.foldlRecOn _ _ (Element.PlainNames.addClasses ?_ _)
    fun data start selector listed => start.applyAttribute (names.attributes selector listed)
  split
  · exact Element.plainNames_ofTag plain
  · exact (Element.plainNames_ofTag plain).congr rfl rfl

end SelectorTree
