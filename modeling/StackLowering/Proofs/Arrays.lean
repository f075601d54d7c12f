import StackLowering.Proofs.Relocation

/-!
The code of an array.

* `Expr.alone`, `Expr.StandsAlone`: what lowering a tree on its own leads to, if it succeeds.
* `Expr.elementCode`, `Expr.elementsCode`: the instructions for one element and for all of them.
* `Expr.instructions_elementMoves`: the moves of the elements emit these instructions.
* `Session.step_newArray`: **the layout of an array**.
-/

namespace StackLowering

open Move (Clean)

/-! ### Trees on their own -/

namespace Expr

variable (config : Config) (e : Expr)

/-- The session that a tree on its own leads to. -/
def alone : Session Code :=
  ((Session.start Code.empty).step config (.lower e)).2

/-- A tree can be lowered on its own. -/
def StandsAlone : Prop :=
  (e.lower config).run (Session.start Code.empty) = .ok () (e.alone config)

variable {config} {e}

/-- A tree that is lowered in a session can be lowered on its own, with the same moves. -/
lemma relocated_alone {s s' : Session Code} (hbounded : s.Bounded) (hlive : s.reachable = true)
    (hrun : (e.lower config).run s = .ok () s') :
    e.StandsAlone config ∧ Relocated Code.empty s (e.alone config) s' := by
  obtain ⟨t, ht, hrelocated⟩ : ∃ t, (e.lower config).run (Session.start Code.empty) = .ok () t ∧
      Relocated Code.empty s t s' := relocated_of_lower hbounded hlive hrun
  have halone : e.alone config = t := by
    rw [alone, Session.step_eq_last, Lowering.last, Step.expr, ht]
  rw [StandsAlone, halone]
  exact ⟨ht, hrelocated⟩

lemma StandsAlone.step (h : e.StandsAlone config) :
    (Session.start Code.empty).step config (.lower e) = (none, e.alone config) := by
  refine Prod.ext ?_ rfl
  have hrun : (e.lower config).run (Session.start Code.empty) = .ok () (e.alone config) := h
  rw [Session.step, Step.action, hrun]

lemma StandsAlone.labels_size (h : e.StandsAlone config) :
    (e.alone config).labels.size = e.labelCount := by
  have hsize := (e.lower_follows config 0 (Session.start Code.empty) rfl).2 _ h
  rw [hsize, Nat.zero_add]

/-- The moves of a tree emit what the tree on its own emits. -/
lemma StandsAlone.instructions (h : e.StandsAlone config) (first : Nat) :
    (Move.events (e.moves config first)).filterMap Event.instruction?
      = (e.alone config).sink.instructions.toList.map (Instruction.shift first) := by
  have hcourse := e.course_of_lower_eq_ok config rfl h
  have hmoves : e.moves config first
      = (e.moves config (Session.start Code.empty).labels.size).map (Move.relocate first 0) :=
    e.moves_add config first 0 0
  rw [hmoves, hcourse.events_relocate, Event.instructions_shift, hcourse.sink,
    Code.instructions_tell]
  rfl

/-- The labels of a tree on its own stand where its moves place them. -/
lemma StandsAlone.labelPosition? (h : e.StandsAlone config) (label : Label) :
    (e.alone config).sink.labelPosition? label
      = Event.position? label 0 (Move.events (e.moves config 0)) := by
  rw [(e.course_of_lower_eq_ok config rfl h).sink]
  exact Code.labelPosition?_tell_empty

/-- A tree below a node that is lowered can be lowered on its own, and in the code its labels have
the positions that they have then, counted from where its code begins. -/
lemma child_in_place {c : Expr} {k : Nat} {s s' : Session Code} (hbounded : s.Bounded)
    (hlive : s.reachable = true) (hforward : s.Forward)
    (hrun : (e.lower config).run s = .ok () s') (hc : e.children[k]? = some c) :
    ∃ s₁, Course 0 s (e.leadingMoves config s.labels.size k) s₁ ∧
      c.StandsAlone config ∧
      ∀ label : Label, label.id < c.labelCount →
        s'.sink.labelPosition? (label.shift (s.labels.size + e.labelsBefore k))
          = ((c.alone config).sink.labelPosition? label).map (s₁.sink.size + ·) := by
  obtain ⟨s₁, s₂, rest, -, hlead, hsize, hlive₁, hchild, -, hrest⟩ := visit_child hlive hrun hc
  have hforward₁ : s₁.Forward := .course hlead hforward
  obtain ⟨halone, hrelocated⟩ := relocated_alone (.course hlead hbounded) hlive₁ hchild
  refine ⟨s₁, hlead, halone, fun label hlt => ?_⟩
  rw [← hsize]
  have hcourse := c.course_of_lower_eq_ok config hlive₁ hchild
  have hrow : label.shift s₁.labels.size ∈ Label.row s₁.labels.size c.labelCount :=
    Label.mem_row.mpr ⟨Nat.le_add_right _ _, Nat.add_lt_add_left hlt _⟩
  -- the label is one that the child creates, so it is placed when the child is done
  obtain ⟨depth, hplaced⟩ := hcourse.placed_of_row (c.uses_moves _ hcourse.clean) hrow
  have hold : ¬(label.shift s₁.labels.size).id < s₁.labels.size :=
    Nat.not_lt.mpr (Nat.le_add_right _ _)
  have hnew : (⟨(label.shift s₁.labels.size).id - s₁.labels.size⟩ : Label) = label :=
    Label.eq_of_id_eq (Nat.add_sub_cancel_left ..)
  rw [hrest.labelPosition? hplaced, hrelocated.labelPosition? hforward₁, if_neg hold, hnew]

/-! ### Elements -/

variable (config) in
/-- The instructions that fill the place `index` of an array: a second reference to it, the index,
the code of the element with its labels numbered from `first` on, and the store. -/
def elementCode (kind : ArrayKind) (first index : Nat) (e : Expr) : List Instruction :=
  .dup :: .pushInt config.options.compactConstants (.ofNat index) ::
    ((e.alone config).sink.instructions.toList.map (Instruction.shift first) ++ [.arrayStore kind])

variable (config) in
/-- The instructions that fill an array from its beginning, with labels numbered from `first` on. -/
def elementsCode (kind : ArrayKind) (first : Nat) (elements : List Expr) : List Instruction :=
  (elements.mapIdx fun i e =>
    e.elementCode config kind (first + labelCounts (elements.take i)) i).flatten

/-- The moves of elements emit their code. -/
lemma instructions_elementMoves {kind : ArrayKind} {elements : List Expr} {first index : Nat}
    (hclean : Clean (elementMoves config (.arrayStore kind) first index elements))
    (halone : ∀ e ∈ elements, e.StandsAlone config) :
    (Move.events (elementMoves config (.arrayStore kind) first index elements)).filterMap
        Event.instruction?
      = (elements.mapIdx fun i e => e.elementCode config kind
          (first + labelCounts (elements.take i)) (index + i)).flatten := by
  induction elements generalizing first index with
  | nil => rfl
  | cons e es ih =>
      obtain ⟨he, hes⟩ := List.forall_mem_cons.mp halone
      rw [elementMoves, Move.clean_cons, Move.clean_cons, Move.clean_append, Move.clean_consumed,
        Move.clean_cons] at hclean
      obtain ⟨-, -, ⟨hvalue, -⟩, -, hrest⟩ := hclean
      have hnext : (fun i e' => elementCode config kind
            (first + labelCounts ((e :: es).take (i + 1))) (index + (i + 1)) e')
          = fun i e' => elementCode config kind
            (first + e.labelCount + labelCounts (es.take i)) (index + 1 + i) e' := by
        funext i e'
        rw [List.take_succ_cons, labelCounts, Nat.add_assoc, Nat.add_comm i 1, Nat.add_assoc index]
      rw [List.mapIdx_cons, hnext, List.flatten_cons, ← ih hrest hes, elementMoves,
        Move.consumed_of_hasValue hvalue, Move.events_emit, Move.events_emit, Move.events_append,
        Move.events_emit]
      simp [Event.instruction?, elementCode, he.instructions, labelCounts]

lemma instructions_elements {kind : ArrayKind} {elements : List Expr} {first : Nat}
    (hclean : Clean (elementMoves config (.arrayStore kind) first 0 elements))
    (halone : ∀ e ∈ elements, e.StandsAlone config) :
    (Move.events (elementMoves config (.arrayStore kind) first 0 elements)).filterMap
        Event.instruction? = elementsCode config kind first elements := by
  rw [instructions_elementMoves hclean halone, elementsCode]
  simp only [Nat.zero_add]

/-- Where the code of an element begins: after two instructions for the array, the code of the
elements before it and two instructions for the place. -/
lemma size_before_element {kind : ArrayKind} {elements : List Expr} {first : Nat}
    {push allocation copy index : Instruction} {s s₁ : Session Code}
    (hlead : Course 0 s (.emit push :: .emit allocation ::
      (elementMoves config (.arrayStore kind) first 0 elements ++ [.emit copy, .emit index])) s₁)
    (halone : ∀ e ∈ elements, e.StandsAlone config) :
    s₁.sink.size = s.sink.size + 2 + (elementsCode config kind first elements).length + 2 := by
  have hclean := hlead.clean
  simp only [Move.clean_cons, Move.clean_append] at hclean
  rw [← instructions_elements hclean.2.2.1 halone, hlead.sink, Code.size_tell,
    ← Event.extent_eq_length]
  simp only [Move.events_emit, Move.events_append, Move.events_nil, Event.extent,
    Event.extent_append]
  omega

end Expr

/-! ### Arrays -/

namespace Selection

/-- Arrays of built-in types are allocated by kind, and all others by the name of the type of their
elements. -/
lemma allocation_eq {naming : Naming} {element : Ty} {kind : ArrayKind} {allocation : Instruction}
    (hkind : arrayKind element = .ok kind) (h : newArray naming element = .ok allocation) :
    (∀ primitive, element.primitive? = some primitive →
        ArrayKind.ofPrimitive? primitive = some kind ∧ allocation = .newArray kind) ∧
      (element.primitive? = none →
        kind = .reference ∧ allocation = .newRefArray (naming.internalName element)) := by
  obtain ⟨kind', hkind', rfl⟩ := newArray_eq_ok.mp h
  obtain rfl : kind' = kind := Except.ok.inj (hkind'.symm.trans hkind)
  rw [arrayKind] at hkind
  refine ⟨fun primitive hprimitive => ?_, fun hnone => ?_⟩
  · rw [hprimitive] at hkind
    cases primitive <;> cases hkind <;> exact ⟨rfl, rfl⟩
  · rw [hnone] at hkind
    cases hkind
    exact ⟨rfl, rfl⟩

end Selection

/-- The moves of an array that is accepted, and those that lead to one of its elements. -/
lemma Expr.moves_newArray {config : Config} {element : Ty} {elements : List Expr} {first : Nat}
    (hclean : Clean ((newArray element elements).moves config first)) :
    ∃ kind allocation, Selection.arrayKind element = .ok kind ∧
      Selection.newArray config.naming element = .ok allocation ∧
      elements.length < Selection.lengthLimit ∧
      (newArray element elements).moves config first
        = .emit (.pushInt config.options.compactConstants (.ofNat elements.length)) ::
          .emit allocation :: elementMoves config (.arrayStore kind) first 0 elements ∧
      ∀ k, (newArray element elements).leadingMoves config first k
        = .emit (.pushInt config.options.compactConstants (.ofNat elements.length)) ::
          .emit allocation :: (elementMoves config (.arrayStore kind) first 0 (elements.take k)
            ++ [.emit .dup, .emit (.pushInt config.options.compactConstants (.ofNat k))]) := by
  obtain ⟨allocation, hallocation, h⟩ := Move.clean_guarded.mp hclean
  obtain ⟨store, hstore, h⟩ := Move.clean_guarded.mp h
  obtain ⟨length, hlength, -⟩ := Move.clean_guarded.mp h
  obtain ⟨kind, hkind, rfl⟩ := Selection.arrayStore_eq_ok.mp hstore
  obtain ⟨hlt, rfl⟩ := Selection.arrayLength_eq_ok.mp hlength
  refine ⟨kind, allocation, hkind, hallocation, hlt, ?_, fun k => ?_⟩
  · simp only [moves, hallocation, hstore, hlength, Move.guarded]
  · simp only [leadingMoves, hallocation, hstore, hlength, Move.guarded]

/-- **The layout of an array.**  Take any session that steps have led to from empty code, failed
steps included, and a step in it that succeeds with an array.  The code gets one push of the number
of elements and one allocation, by kind if the elements have a built-in type and else by the name of
their type.  Then it gets for each element in order a second reference to the array, one push of the
index, the code that the element has on its own, and one store, of the same kind as the allocation.
In the code of an element, labels follow those of the elements before it, and they have the
positions that they have on their own, counted from where this code begins.  Labels from before stay
where they are. -/
theorem Session.step_newArray (config : Config) (step : Step) (element : Ty) (elements : List Expr)
    (hexpr : step.expr = .newArray element elements) (earlier : List (Config × Step))
    {s s' : Session Code} (hs : s = (Session.start Code.empty).after earlier)
    (hrun : s.step config step = (none, s')) :
    ∃ kind allocation,
      (∀ primitive, element.primitive? = some primitive →
        ArrayKind.ofPrimitive? primitive = some kind ∧ allocation = .newArray kind) ∧
      (element.primitive? = none →
        kind = .reference ∧ allocation = .newRefArray (config.naming.internalName element)) ∧
      (∀ n ≤ elements.length, (Instruction.pushInt config.options.compactConstants
        (.ofNat n)).pushedInt?.map Int32.toInt = some (n : Int)) ∧
      s'.sink.instructions.toList = s.sink.instructions.toList
        ++ .pushInt config.options.compactConstants (.ofNat elements.length) :: allocation
          :: Expr.elementsCode config kind s.labels.size elements ∧
      (∀ i e, elements[i]? = some e →
        (Session.start Code.empty).step config (.lower e) = (none, e.alone config) ∧
        (e.alone config).labels.size = e.labelCount ∧
        ∀ label, label.id < e.labelCount →
          s'.sink.labelPosition?
              (label.shift (s.labels.size + Expr.labelCounts (elements.take i)))
            = ((e.alone config).sink.labelPosition? label).map
                (s.sink.size + 2
                  + (Expr.elementsCode config kind s.labels.size (elements.take i)).length
                  + 2 + ·)) ∧
      s'.labels.size = s.labels.size + Expr.labelCounts elements ∧
      ∀ label, label.id < s.labels.size →
        s'.sink.labelPosition? label = s.sink.labelPosition? label := by
  have hreached : s.Reached := by
    rw [hs]
    exact (Reached.start _).after earlier
  have hforward : s.Forward := by
    rw [hs]
    exact .after earlier
  have hlower := lower_of_step hrun
  rw [hexpr] at hlower
  have hcourse := Expr.course_of_lower_eq_ok config _ hreached.live hlower
  obtain ⟨kind, allocation, hkind, hallocation, hlt, hmoves, hleading⟩ :=
    Expr.moves_newArray hcourse.clean
  obtain ⟨hprimitive, hreference⟩ := Selection.allocation_eq hkind hallocation
  have hchild {i : Nat} {e : Expr} (he : elements[i]? = some e) :=
    Expr.child_in_place hreached.bounded hreached.live hforward hlower (k := i) (c := e) he
  have halone : ∀ e ∈ elements, e.StandsAlone config := by
    intro e he
    obtain ⟨i, hi⟩ := List.mem_iff_getElem?.mp he
    obtain ⟨-, -, h, -⟩ := hchild hi
    exact h
  refine ⟨kind, allocation, hprimitive, hreference, fun n hn => ?_, ?_, fun i e he => ?_, ?_, ?_⟩
  · have hsmall : n < Nat.pow 2 31 := Nat.lt_of_le_of_lt hn hlt
    rw [Instruction.pushedInt?_pushInt, Option.map_some, Int32.toInt_ofNat_of_lt hsmall]
  · rw [hmoves] at hcourse
    have hclean := hcourse.clean
    simp only [Move.clean_cons] at hclean
    rw [hcourse.sink, Code.instructions_tell, Move.events_emit, Move.events_emit,
      ← Expr.instructions_elements hclean.2.2 halone]
    rfl
  · obtain ⟨s₁, hlead, hown, hposition⟩ := hchild he
    rw [hleading] at hlead
    have hbegin := Expr.size_before_element hlead fun e he => halone e (List.mem_of_mem_take he)
    refine ⟨hown.step, hown.labels_size, fun label hlabel => ?_⟩
    rw [← hbegin]
    exact hposition label hlabel
  · exact (Expr.lower_follows config _ _ s rfl).2 _ hlower
  · intro label hlabel
    obtain ⟨-, hrelocated⟩ := Expr.relocated_alone hreached.bounded hreached.live hlower
    rw [hrelocated.labelPosition? hforward, if_pos hlabel]

/-- Two elements with labels of their own, after a tree that has labels too. -/
theorem Session.step_newArray_of_nots :
    let e : Expr := .not (.load ⟨1, .ofPrimitive .int⟩)
    let s := (Session.start Code.empty).after [({}, .lower e)]
    let s' := (s.step {} (.lower (.newArray (.ofPrimitive .boolean) [e, e]))).2
    let added : List Instruction := [.iconst 2, .newArray .boolean,
      .dup, .iconst 0, .load .int 1, .branch (.zero .ne) ⟨2⟩, .iconst 1, .goto ⟨3⟩, .iconst 0,
      .arrayStore .boolean,
      .dup, .iconst 1, .load .int 1, .branch (.zero .ne) ⟨4⟩, .iconst 1, .goto ⟨5⟩, .iconst 0,
      .arrayStore .boolean]
    s.labels.size = 2 ∧
      s'.sink.instructions.toList = s.sink.instructions.toList ++ added ∧
      s'.sink.labelPosition? ⟨5⟩ = some 22 := by
  intro e s s' added
  have hlabels : s.labels.size = 2 := by
    simp only [s, e]
    decide +kernel
  have hsize : s.sink.size = 5 := by
    simp only [s, e]
    decide +kernel
  have hs : s = (Session.start Code.empty).after [({}, .lower e)] := rfl
  have hresult : (s.step {} (.lower (.newArray (.ofPrimitive .boolean) [e, e]))).1 = none := by
    simp only [s, e]
    decide +kernel
  have hrun : s.step {} (.lower (.newArray (.ofPrimitive .boolean) [e, e])) = (none, s') :=
    (Prod.eta _).symm.trans (congrArg (·, s') hresult)
  clear_value s s'
  obtain ⟨kind, allocation, hprimitive, -, -, hcode, helements, -⟩ :=
    step_newArray {} _ _ _ rfl _ hs hrun
  obtain ⟨hkind, rfl⟩ := hprimitive .boolean rfl
  cases hkind
  refine ⟨hlabels, ?_, ?_⟩
  · rw [hcode, hlabels]
    refine congrArg (s.sink.instructions.toList ++ ·) ?_
    simp only [e, added]
    decide +kernel
  · obtain ⟨hown, -, hposition⟩ := helements 1 e rfl
    have halone : e.StandsAlone {} := lower_of_step hown
    have hlast := hposition ⟨1⟩ (by decide)
    rw [hlabels, hsize, halone.labelPosition?] at hlast
    refine hlast.trans ?_
    simp only [e]
    decide +kernel

end StackLowering
