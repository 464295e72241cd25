import SelectorTree.Proofs.Element.Content
import SelectorTree.Proofs.Synthesis.Sides

/-!
# Showing a content

A content changes one element and at most one text below it.  `texts` reads the
texts of a node; all other data and all links between elements stay.
-/

namespace SelectorTree

namespace Tree

variable {tree before after : Tree} {id : NodeId} {data : Element} {content : String}

/-- The texts among the children of a node. -/
def texts (tree : Tree) (id : NodeId) : List String := (tree.children id).filterMap tree.text?

theorem setContent_eq (found : tree.element? id = some data) (content : String) :
    tree.setContent id content =
      if (ElementKind.ofTag data.tag).usesText = true then
        (tree.setElement id (data.withContent content)).setText id content
      else tree.setElement id (data.withContent content) := by
  simp only [setContent, found, Element.withContent]
  cases ElementKind.ofTag data.tag <;> simp [ElementKind.usesText, setElement_self found]

@[simp] theorem texts_setElement (tree : Tree) (id other : NodeId) (data : Element) :
    (tree.setElement id data).texts other = tree.texts other := by
  simp [texts]

@[simp] theorem elementChildren_setElement (tree : Tree) (id other : NodeId) (data : Element) :
    (tree.setElement id data).elementChildren other = tree.elementChildren other := by
  have sameTest : (tree.setElement id data).isElement = tree.isElement :=
    funext (isElement_setElement tree id · data)
  simp [elementChildren, sameTest]

theorem text?_eq_none_of_element? (found : tree.element? id = some data) :
    tree.text? id = none := by
  simp [text?, payload?_eq_of_element? found]

theorem element?_eq_none_of_text? {text : String} (found : tree.text? id = some text) :
    tree.element? id = none := by
  rw [text?] at found
  split at found
  · next payload => simp [element?, payload]
  · cases found

/-- A content has been shown at a node, and nothing else happened: elements
keep their places, and other nodes their data and texts. -/
structure Shown (before after : Tree) (id : NodeId) : Prop where
  linked : after.Linked
  size_le : before.size ≤ after.size
  parent_of_lt : ∀ other : Nat, other < before.size → after.parent other = before.parent other
  children_of_ne : ∀ other, other ≠ id → after.children other = before.children other
  children_self : after.children id = before.children id ∨
    after.children id = before.children id ++ [before.size]
  elementChildren_eq : ∀ other, after.elementChildren other = before.elementChildren other
  element?_of_ne : ∀ other, other ≠ id → after.element? other = before.element? other
  payload?_of_ne : ∀ other : Nat, other < before.size → other ≠ id →
    before.parent other ≠ some id → after.payload? other = before.payload? other
  new_text : ∀ other : Nat, before.size ≤ other → after.element? other = none
  texts_of_ne : ∀ other, other ≠ id → after.texts other = before.texts other

theorem shown_setElement (linked : tree.Linked) (found : tree.element? id = some data)
    (changed : Element) : Shown tree (tree.setElement id changed) id where
  linked := linked.setElement id changed
  size_le := by simp
  parent_of_lt := by simp
  children_of_ne := by simp
  children_self := by simp
  elementChildren_eq := by simp
  element?_of_ne other different := element?_setElement_of_ne (Ne.symm different) changed
  payload?_of_ne other _ different _ := payload?_setElement_of_ne (Ne.symm different) changed
  new_text other fresh := by
    have outside : id ≠ other := by
      rintro rfl
      exact Nat.not_le_of_lt (lt_size_of_element? found) fresh
    rw [element?_setElement_of_ne outside, element?, payload?_eq_none_of_size_le fresh]
  texts_of_ne := by simp

/-! ### Replacing the first text -/

section ReplaceText

variable {text : NodeId} {front back : List NodeId} {old : String}

private theorem payload?_replaceText {other : NodeId} (different : text ≠ other) :
    (tree.setPayload text (.text content)).payload? other = tree.payload? other := by
  rw [payload?_setPayload, if_neg different]

private theorem text?_replaceText (found : tree.text? text = some old) :
    (tree.setPayload text (.text content)).text? text = some content := by
  rw [text?] at found
  split at found
  · next payload => simp [text?, payload?_setPayload, payload]
  · cases found

private theorem element?_replaceText (found : tree.text? text = some old) (other : NodeId) :
    (tree.setPayload text (.text content)).element? other = tree.element? other := by
  by_cases same : text = other
  · subst same
    rw [element?_eq_none_of_text? (text?_replaceText found), element?_eq_none_of_text? found]
  · exact element?_congr (payload?_replaceText same)

private theorem shown_replaceText (linked : tree.Linked) (found : tree.text? text = some old)
    (listed : text ∈ tree.children id) :
    Shown tree (tree.setPayload text (.text content)) id := by
  have attached := linked.parent_of_mem listed
  refine ⟨linked.setPayload _ _, by simp, by simp, by simp, by simp, ?_, ?_, ?_, ?_, ?_⟩
  · intro other
    have sameTest : (tree.setPayload text (.text content)).isElement = tree.isElement := by
      funext node
      simp [isElement, element?_replaceText found]
    simp [elementChildren, sameTest]
  · exact fun other _ => element?_replaceText found other
  · intro other _ _ notChild
    refine payload?_replaceText ?_
    rintro rfl
    exact notChild attached
  · intro other fresh
    rw [element?_replaceText found, element?, payload?_eq_none_of_size_le fresh]
  · intro other different
    simp only [texts, children_setPayload]
    refine List.filterMap_congr fun child member => text?_congr (payload?_replaceText ?_)
    rintro rfl
    exact different (linked.parent_unique member listed)

private theorem texts_replaceText (linked : tree.Linked) (found : tree.text? text = some old)
    (split : tree.children id = front ++ text :: back)
    (textless : front.filterMap tree.text? = []) :
    (tree.setPayload text (.text content)).texts id = content :: (tree.texts id).tail := by
  have distinct := linked.nodup_children id
  rw [split] at distinct
  obtain ⟨-, backDistinct, apart⟩ := List.nodup_append.mp distinct
  have sameFront : front.filterMap (tree.setPayload text (.text content)).text? =
      front.filterMap tree.text? := by
    refine List.filterMap_congr fun child member => text?_congr (payload?_replaceText ?_)
    exact Ne.symm (apart child member text List.mem_cons_self)
  have sameBack : back.filterMap (tree.setPayload text (.text content)).text? =
      back.filterMap tree.text? := by
    refine List.filterMap_congr fun child member => text?_congr (payload?_replaceText ?_)
    rintro rfl
    exact (List.nodup_cons.mp backDistinct).1 member
  simp [texts, split, sameFront, sameBack, textless, text?_replaceText found, found]

end ReplaceText

/-! ### Adding a text where there was none -/

section AppendText

variable (entered : Entered (tree.alloc (.text content)).1 after id [tree.size])

include entered

private theorem payload?_appendText (other : NodeId) :
    after.payload? other =
      if other = tree.size then some (.text content) else tree.payload? other :=
  (entered.payload?_eq other).trans (payload?_alloc tree _ other)

private theorem element?_appendText (other : NodeId) :
    after.element? other = tree.element? other := by
  by_cases same : other = tree.size
  · subst same
    simp [element?, payload?_appendText entered, payload?_eq_none_of_size_le]
  · refine element?_congr ?_
    rw [payload?_appendText entered, if_neg same]

private theorem children_appendText {other : NodeId} (different : other ≠ id) :
    after.children other = tree.children other :=
  (entered.children_of_ne other different).trans (children_alloc tree _ other)

variable (linked : tree.Linked)

include linked

private theorem texts_appendText (part : NodeId) :
    (tree.children part).filterMap after.text? = tree.texts part := by
  refine List.filterMap_congr fun child member => text?_congr ?_
  rw [payload?_appendText entered, if_neg (Nat.ne_of_lt (linked.lt_size_of_mem member))]

variable (children : after.children id = tree.children id ++ [tree.size])

include children

omit linked in
private theorem elementChildren_appendText (other : NodeId) :
    after.elementChildren other = tree.elementChildren other := by
  have sameTest : after.isElement = tree.isElement := by
    funext node
    simp [isElement, element?_appendText entered]
  rw [elementChildren, elementChildren, sameTest]
  by_cases same : other = id
  · subst same
    have noElement : tree.isElement tree.size = false := by
      simp [isElement, element?, payload?_eq_none_of_size_le]
    rw [children, List.filter_append]
    simp [noElement]
  · rw [children_appendText entered same]

private theorem shown_appendText : Shown tree after id where
  linked := entered.linked
  size_le := by
    rw [entered.size_eq, size_alloc]
    exact Nat.le_succ _
  parent_of_lt other old := by
    refine (entered.parent_eq other).trans ?_
    rw [if_neg fun member => Nat.ne_of_lt old (List.mem_singleton.mp member), parent_alloc]
  children_of_ne _ different := children_appendText entered different
  children_self := Or.inr children
  elementChildren_eq := elementChildren_appendText entered children
  element?_of_ne other _ := element?_appendText entered other
  payload?_of_ne other old _ _ := by
    rw [payload?_appendText entered, if_neg (Nat.ne_of_lt old)]
  new_text other fresh := by
    rw [element?_appendText entered, element?, payload?_eq_none_of_size_le fresh]
  texts_of_ne other different := by
    rw [texts, children_appendText entered different, texts_appendText entered linked]

private theorem texts_appendText_self (textless : tree.texts id = []) :
    after.texts id = content :: (tree.texts id).tail := by
  rw [texts, children, List.filterMap_append, texts_appendText entered linked, textless]
  simp [text?, payload?_appendText entered]

end AppendText

theorem shown_setText (linked : tree.Linked) (found : tree.element? id = some data)
    (content : String) :
    Shown tree (tree.setText id content) id ∧
      (tree.setText id content).texts id = content :: (tree.texts id).tail ∧
      (tree.setText id content).element? id = some data := by
  rw [setText]
  split
  · next text first =>
      obtain ⟨isText, front, back, split, others⟩ := List.find?_eq_some_iff_append.mp first
      obtain ⟨old, foundText⟩ := Option.isSome_iff_exists.mp isText
      have textless : front.filterMap tree.text? = [] := by
        refine List.filterMap_eq_nil_iff.mpr fun child member => ?_
        simpa using others child member
      exact ⟨shown_replaceText linked foundText (by simp [split]),
        texts_replaceText linked foundText split textless,
        (element?_replaceText foundText id).trans found⟩
  · next none =>
      have leaves := leaves_alloc tree (.text content)
      have stillLinked := linked.alloc (.text content)
      have insertable := linked.insertable_alloc (.text content) (lt_size_of_element? found)
      have entered := leaves.entered_insertRun stillLinked insertable List.length
      have children := children_appendChild leaves stillLinked insertable
      rw [children_alloc] at children
      have textless : tree.texts id = [] := by
        refine List.filterMap_eq_nil_iff.mpr fun child member => ?_
        simpa using List.find?_eq_none.mp none child member
      exact ⟨shown_appendText entered linked children,
        texts_appendText_self entered linked children textless,
        (element?_appendText entered id).trans found⟩

theorem firstTextChild_eq_none_iff : tree.firstTextChild id = none ↔ tree.texts id = [] := by
  rw [firstTextChild, List.find?_eq_none, texts, List.filterMap_eq_nil_iff]
  simp

/-- A node is added for a text where there was none. -/
theorem size_setText (tree : Tree) (id : NodeId) (content : String) :
    (tree.setText id content).size =
      if tree.texts id = [] then tree.size + 1 else tree.size := by
  rw [setText]
  split
  · next text first =>
      have some : tree.texts id ≠ [] := by
        intro textless
        rw [firstTextChild_eq_none_iff.mpr textless] at first
        cases first
      rw [if_neg some, size_setPayload]
  · next none =>
      rw [if_pos (firstTextChild_eq_none_iff.mp none), appendChild, size_insertRun, size_alloc]

/-- A content shown after a change of the element counts from before it. -/
theorem Shown.of_setElement {changed : Element}
    (shown : Shown (tree.setElement id changed) after id) : Shown tree after id where
  linked := shown.linked
  size_le := by simpa using shown.size_le
  parent_of_lt := by simpa using shown.parent_of_lt
  children_of_ne := by simpa using shown.children_of_ne
  children_self := by simpa using shown.children_self
  elementChildren_eq := by simpa using shown.elementChildren_eq
  element?_of_ne other different := by
    rw [shown.element?_of_ne other different, element?_setElement_of_ne (Ne.symm different)]
  payload?_of_ne other old different notChild := by
    rw [shown.payload?_of_ne other (by simpa using old) different (by simpa using notChild),
      payload?_setElement_of_ne (Ne.symm different)]
  new_text := by simpa using shown.new_text
  texts_of_ne := by simpa using shown.texts_of_ne

theorem size_setContent (found : tree.element? id = some data) (content : String) :
    (tree.setContent id content).size =
      if (ElementKind.ofTag data.tag).usesText = true ∧ tree.texts id = [] then tree.size + 1
      else tree.size := by
  rw [setContent_eq found]
  cases (ElementKind.ofTag data.tag).usesText with
  | false => simp
  | true => simp [size_setText]

section SetContent

variable (linked : tree.Linked) (found : tree.element? id = some data) (content : String)

include linked found

theorem shown_setContent : Shown tree (tree.setContent id content) id := by
  rw [setContent_eq found]
  split
  · have changed := element?_setElement_self found (data.withContent content)
    exact (shown_setText (linked.setElement id _) changed content).1.of_setElement
  · exact shown_setElement linked found _

theorem element?_setContent_self :
    (tree.setContent id content).element? id = some (data.withContent content) := by
  have changed := element?_setElement_self found (data.withContent content)
  rw [setContent_eq found]
  split
  · exact (shown_setText (linked.setElement id _) changed content).2.2
  · exact changed

theorem texts_setContent_self :
    (tree.setContent id content).texts id =
      if (ElementKind.ofTag data.tag).usesText = true then content :: (tree.texts id).tail
      else tree.texts id := by
  have changed := element?_setElement_self found (data.withContent content)
  rw [setContent_eq found]
  split
  · rw [(shown_setText (linked.setElement id _) changed content).2.1, texts_setElement]
  · exact texts_setElement tree id id _

end SetContent

/-! ## Content and nothing else -/

/-- A content, or none, is all that an element shows: no attribute, live value
or text besides. -/
structure Holds (tree : Tree) (id : NodeId) (data : Element) (content? : Option String) :
    Prop where
  attributes : ∀ name, data.getAttribute name =
    if (ElementKind.ofTag data.tag).attribute? = some name then content? else none
  value : data.value = if ElementKind.ofTag data.tag = .select then content? else none
  texts : tree.texts id =
    if (ElementKind.ofTag data.tag).usesText = true then content?.toList else []

theorem Holds.congr {content? : Option String} (holds : before.Holds id data content?)
    {changed : Element} (tag : changed.tag = data.tag)
    (attributes : changed.attributes = data.attributes) (value : changed.value = data.value)
    (texts : after.texts id = before.texts id) : after.Holds id changed content? where
  attributes name := by
    rw [tag, ← holds.attributes name, Element.getAttribute, attributes]
    rfl
  value := by rw [tag, value, holds.value]
  texts := by rw [tag, texts, holds.texts]

/-- A further content takes the place of the one before. -/
theorem Holds.setContent {content? : Option String} (holds : tree.Holds id data content?)
    (linked : tree.Linked) (found : tree.element? id = some data) (content : String) :
    (tree.setContent id content).Holds id (data.withContent content) (some content) where
  attributes name := by
    rw [Element.getAttribute_withContent, holds.attributes, Element.tag_withContent]
    split <;> rfl
  value := by
    rw [Element.value_withContent, holds.value, Element.tag_withContent]
    split <;> rfl
  texts := by
    rw [texts_setContent_self linked found, holds.texts, Element.tag_withContent]
    split
    · cases content? <;> rfl
    · rfl

end Tree

end SelectorTree
