import SelectorTree.Synthesis.Content

/-!
# Elements with content

What a content changes in an element depends on the kind of the element: one
attribute, the live value, or nothing because the content is shown as text.
-/

namespace SelectorTree

namespace Attributes

@[simp] theorem get?_empty (name : String) : empty.get? name = none := rfl

private theorem lookup_insertEntry (name value other : String)
    (entries : List (String × String)) :
    (insertEntry name value entries).lookup other =
      if other = name then some value else entries.lookup other := by
  induction entries with
  | nil => grind [insertEntry]
  | cons entry rest ih =>
      obtain ⟨key, old⟩ := entry
      rw [insertEntry]
      split
      · grind
      · split
        · next behind =>
            have different : key ≠ name := fun same => String.lt_irrefl name (same ▸ behind)
            grind
        · next notBefore notBehind =>
            have same : name = key :=
              String.le_antisymm (String.not_lt.mp notBehind) (String.not_lt.mp notBefore)
            grind

theorem get?_set (attributes : Attributes) (name value other : String) :
    (attributes.set name value).get? other =
      if other = name then some value else attributes.get? other :=
  lookup_insertEntry name value other attributes.entries

/-- An entry that is there is not changed by setting it. -/
theorem insertEntry_eq_self {name value : String} {entries : List (String × String)}
    (ascending : AscendingNames entries) (held : entries.lookup name = some value) :
    insertEntry name value entries = entries := by
  induction entries with
  | nil => cases held
  | cons entry rest ih =>
      obtain ⟨key, old⟩ := entry
      obtain ⟨above, restAscending⟩ := List.pairwise_cons.mp ascending
      by_cases same : name = key
      · subst same
        have sameValue : old = value := by simpa [List.lookup_cons] using held
        simp [insertEntry, sameValue]
      · have later : rest.lookup name = some value := by
          have different : (name == key) = false := by simpa using same
          simpa [List.lookup_cons, different] using held
        obtain ⟨front, back, split, -⟩ := List.lookup_eq_some_iff.mp later
        have behind : key < name := above (name, value) (by simp [split])
        rw [insertEntry, if_neg (String.lt_asymm behind), if_pos behind, ih restAscending later]

theorem set_eq_self {attributes : Attributes} {name value : String}
    (held : attributes.get? name = some value) : attributes.set name value = attributes :=
  ext (insertEntry_eq_self attributes.ascending held)

end Attributes

/-- The element with a content in an attribute or in its live value. -/
def Element.withContent (element : Element) (content : String) : Element :=
  match ElementKind.ofTag element.tag with
  | .anchor => element.setAttribute "href" content
  | .media => element.setAttribute "src" content
  | .textField => element.setAttribute "placeholder" content
  | .option => element.setAttribute "value" content
  | .select => { element with value := some content }
  | .other => element

/-- Whether elements of a kind show their content as text. -/
def ElementKind.usesText : ElementKind → Bool
  | .option | .other => true
  | .anchor | .media | .textField | .select => false

@[simp] theorem Element.tag_withContent (element : Element) (content : String) :
    (element.withContent content).tag = element.tag := by
  rw [withContent]
  split <;> rfl

@[simp] theorem Element.id?_withContent (element : Element) (content : String) :
    (element.withContent content).id? = element.id? := by
  rw [withContent]
  split <;> rfl

@[simp] theorem Element.classes_withContent (element : Element) (content : String) :
    (element.withContent content).classes = element.classes := by
  rw [withContent]
  split <;> rfl

@[simp] theorem Element.imported_withContent (element : Element) (content : String) :
    (element.withContent content).imported = element.imported := by
  rw [withContent]
  split <;> rfl

/-- The attribute in which elements of a kind show their content. -/
def ElementKind.attribute? : ElementKind → Option String
  | .anchor => some "href"
  | .media => some "src"
  | .textField => some "placeholder"
  | .option => some "value"
  | .select | .other => none

namespace Element

variable (element : Element) (content : String)

theorem getAttribute_withContent (name : String) :
    (element.withContent content).getAttribute name =
      if (ElementKind.ofTag element.tag).attribute? = some name then some content
      else element.getAttribute name := by
  rw [withContent]
  cases ElementKind.ofTag element.tag <;>
    simp [ElementKind.attribute?, getAttribute, setAttribute, Attributes.get?_set, eq_comm]

theorem value_withContent :
    (element.withContent content).value =
      if ElementKind.ofTag element.tag = .select then some content else element.value := by
  rw [withContent]
  cases ElementKind.ofTag element.tag <;> simp [setAttribute]

/-- Whether an element holds a content where its kind shows it, the text
aside. -/
structure Displays (element : Element) (content : String) : Prop where
  inAttribute : ∀ name, (ElementKind.ofTag element.tag).attribute? = some name →
    element.getAttribute name = some content
  inValue : ElementKind.ofTag element.tag = .select → element.value = some content

theorem displays_withContent : (element.withContent content).Displays content where
  inAttribute name shown := by
    rw [tag_withContent] at shown
    rw [getAttribute_withContent, if_pos shown]
  inValue shown := by
    rw [tag_withContent] at shown
    rw [value_withContent, if_pos shown]

/-- A content that an element holds already changes nothing. -/
theorem Displays.withContent_eq {element : Element} {content : String}
    (displays : element.Displays content) : element.withContent content = element := by
  have slot : ∀ name, (ElementKind.ofTag element.tag).attribute? = some name →
      element.setAttribute name content = element := by
    intro name shown
    rw [setAttribute, Attributes.set_eq_self (displays.inAttribute name shown)]
  have value := displays.inValue
  rw [withContent]
  cases kind : ElementKind.ofTag element.tag with
  | anchor => exact slot "href" (by rw [kind]; rfl)
  | media => exact slot "src" (by rw [kind]; rfl)
  | textField => exact slot "placeholder" (by rw [kind]; rfl)
  | option => exact slot "value" (by rw [kind]; rfl)
  | select =>
      rw [← value kind]
  | other => rfl

end Element

end SelectorTree
