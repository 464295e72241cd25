import SelectorTree.Proofs.Synthesis.Runs

/-!
# Invariants of building

After any rules the tree is sound, nothing but replaced fillers is outside of
it, and no action of the run has touched a filler other than to replace it.
-/

namespace SelectorTree

/-- An element outside of the tree that was a filler at an earlier moment. -/
structure Replaced (options : Options) (actions : List Action) (id : NodeId) : Prop where
  registered : ∃ early, early <+: actions ∧
    (Cursor.after options early).builder.fillers.contains id = true
  unregistered : (Cursor.after options actions).builder.fillers.contains id = false
  detached : (Cursor.after options actions).builder.tree.parent id = none

/-- An action leaves the fillers alone: neither data nor children of one
change, no descriptor is placed below one or merged into one, no content is
shown at one, and a filler that gives way was registered until then. -/
structure SparesFillers (options : Options) (cursor : Cursor) (action : Action) : Prop where
  payload : ∀ id, cursor.builder.fillers.contains id = true →
    (cursor.perform options action).builder.tree.payload? id = cursor.builder.tree.payload? id
  children : ∀ id, cursor.builder.fillers.contains id = true →
    (cursor.perform options action).builder.tree.children id = cursor.builder.tree.children id
  parent : ∀ descriptor imported, action = .place descriptor imported →
    cursor.builder.fillers.contains
      (cursor.builder.parentFor descriptor cursor.node?) = false
  placed : ∀ descriptor imported, action = .place descriptor imported →
    cursor.builder.fillers.contains
      (cursor.builder.placeDescriptor options cursor.node? descriptor imported).2 = false
  target : ∀ content, action = .write content → ∀ id, cursor.node? = some id →
    cursor.builder.fillers.contains id = false
  evicted : ∀ descriptor imported position blocker, action = .place descriptor imported →
    descriptor.position? = some position →
    cursor.builder.tree.probe (cursor.builder.parentFor descriptor cursor.node?) position
      descriptor.element.tag = some blocker →
    cursor.builder.fillers.contains blocker = true →
    (cursor.builder.insertAt (cursor.builder.parentFor descriptor cursor.node?) blocker
        position.side descriptor.element imported).1.fillers.contains blocker = true ∧
      (cursor.perform options action).builder.fillers.contains blocker = false

namespace Cursor

variable {options : Options} {cursor : Cursor} {action : Action} {rules : List TreeRule}

theorem Sound.sparesFillers (sound : cursor.Sound) (proper : action.Proper) :
    SparesFillers options cursor action := by
  have advance := (sound_perform options sound proper).2
  refine ⟨advance.filler_payload, advance.filler_children, ?_, ?_, ?_, ?_⟩
  · intro descriptor _ _
    exact sound.builder.host_unregistered (sound.host_parentFor descriptor)
  · rintro descriptor imported rfl
    exact ((outcome_placeDescriptor options sound descriptor imported).sound sound.builder
      (sound.host_parentFor descriptor) proper.classes).2.2.2
  · intro _ _ id found
    exact (sound.node id found).unregistered
  · rintro descriptor imported position blocker rfl asked found registered
    refine ⟨registered, ?_⟩
    have allocated := sound.builder.host_lt_size (sound.host_parentFor descriptor)
    obtain ⟨front, back, -, -, growth⟩ :=
      Builder.grown_placeAt_of_filler sound.builder.linked allocated found registered options
        imported
    have placed : (cursor.perform options (.place descriptor imported)).builder =
        (cursor.builder.placeAt options (cursor.builder.parentFor descriptor cursor.node?)
          descriptor.element position imported).1 := by
      simp only [perform, Builder.placeDescriptor, asked]
    rw [placed]
    refine Bool.eq_false_iff.mpr fun still => ?_
    rcases (growth.contains_iff blocker).mp still with lead | ⟨-, kept⟩
    · cases lead
    · exact kept (List.mem_singleton_self blocker)

end Cursor

open Cursor in
/-- The invariants of building, for any options and after any rules. -/
theorem invariants_ofRules (options : Options) (rules : List TreeRule) :
    (Builder.ofRules options rules).Sound ∧
      (∀ id, (Builder.ofRules options rules).tree.isElement id = true →
        id ≠ (Builder.ofRules options rules).body →
        (Builder.ofRules options rules).tree.Below (Builder.ofRules options rules).body id ∨
          Replaced options (runActions rules) id) ∧
      ∀ early action late, runActions rules = early ++ action :: late →
        (Cursor.after options early).builder.Sound ∧
          SparesFillers options (Cursor.after options early) action ∧
          ∀ descriptor imported, action = .place descriptor imported →
            (Builder.ofRules options rules).Real
              ((Cursor.after options early).builder.placeDescriptor options
                (Cursor.after options early).node? descriptor imported).2 := by
  have proper : ∀ action ∈ runActions rules, action.Proper :=
    fun _ member => proper_of_mem_runActions member
  have atEnd : (Cursor.after options (runActions rules)).Sound := sound_after proper
  have builderEq := builder_after_runActions options rules
  rw [← builderEq]
  refine ⟨atEnd.builder, ?_, ?_⟩
  · intro id element different
    by_cases below : (Cursor.after options (runActions rules)).builder.tree.Below
        (Cursor.after options (runActions rules)).builder.body id
    · exact Or.inl below
    · right
      obtain ⟨detached, unregistered⟩ :=
        (atEnd.builder.attached id element different).resolve_left below
      exact ⟨(below_or_registered proper element different).resolve_left below, unregistered,
        detached⟩
  · intro early action late split
    have properEarly : ∀ other ∈ early, other.Proper := by
      intro other member
      exact proper other (split ▸ List.mem_append_left _ member)
    have properAction : action.Proper := proper action (by simp [split])
    have properLate : ∀ other ∈ late, other.Proper := by
      intro other member
      exact proper other (by simp [split, member])
    have soundEarly : (Cursor.after options early).Sound := sound_after properEarly
    refine ⟨soundEarly.builder, soundEarly.sparesFillers properAction, ?_⟩
    rintro descriptor imported rfl
    obtain ⟨soundNext, -⟩ := sound_perform options soundEarly properAction
    have placed := soundNext.node _ rfl
    rw [split, after_append, performAll_cons]
    exact (sound_performAll options soundNext properLate).2 _ placed

end SelectorTree
