import StackLowering.Fault

/-!
The labels of one piece of code and the depth of the stack at each of them.

* `Labelling`: computations that change a table of labels and may stop with a
  fault.  What was done before the fault stays done.
* `LabelTable.create` adds a label with the next number.
* `LabelTable.reference` records that a jump reaches a label with some number of
  values on the stack; all jumps to a label must agree.
* `LabelTable.place` fixes the position of a label, once.
* `LabelTable.verify` asks that every label has been placed.
* `LabelTable.run_create`, `LabelTable.run_reference`, `LabelTable.run_place`:
  what each operation makes of a table; `LabelTable.reference_eq_ok` and others
  say when it succeeds, and `LabelTable.reference_eq_error` and others that it
  changes nothing where it fails.
-/

namespace StackLowering

/-- What is known of a label: the depth of the jumps seen so far, if there were
any, and once it is placed, the depth at its position. -/
inductive LabelState where
  | pending (depth : Option Nat)
  | placed (depth : Nat)
  deriving DecidableEq, Repr

/-- Whether the label is still without a position. -/
def LabelState.isPending : LabelState → Bool
  | pending _ => true
  | placed _ => false

/-- The labels created so far; a label's number is its index. -/
structure LabelTable where
  states : Array LabelState := #[]
  deriving DecidableEq, Repr

/-- Computations on a table of labels.  A fault ends the computation and leaves
the table as it was when the fault arose. -/
abbrev Labelling := EStateM Fault LabelTable

namespace LabelTable

/-- The table without labels. -/
def empty : LabelTable := {}

/-- The number of labels. -/
def size (t : LabelTable) : Nat :=
  t.states.size

/-- The numbers of labels lie below this. -/
def limit : Nat := Nat.pow 2 32

/-- The table with another state for a label. -/
def set (t : LabelTable) (label : Label) (s : LabelState) : LabelTable :=
  ⟨t.states.setIfInBounds label.id s⟩

/-- The state of a label that exists. -/
def state (label : Label) : Labelling LabelState := do
  match (← get).states[label.id]? with
  | some s => return s
  | none => throw (.labelUnplaced label)

/-- Two depths at one position have to agree. -/
def checkDepth (expected actual : Nat) : Labelling Unit :=
  if expected = actual then pure () else throw (.stackImbalance expected actual)

/-- A new label without a position. -/
def create : Labelling Label := do
  let id := (← get).size
  if id < limit then
    modify fun t => ⟨t.states.push (.pending none)⟩
    return ⟨id⟩
  else
    throw .tooManyLabels

/-- A jump to a label with `depth` values on the stack.  The first jump to a
label sets the depth for all others. -/
def reference (label : Label) (depth : Nat) : Labelling Unit := do
  match ← state label with
  | .pending none => modify fun t => t.set label (.pending (some depth))
  | .pending (some expected) | .placed expected => checkDepth expected depth

/-- The depth at a label that is about to be placed: the one its jumps recorded
and the one of the code before it, which have to agree if there are both.  With
neither, the stack is empty. -/
def depthAt (recorded current : Option Nat) : Labelling Nat :=
  match recorded, current with
  | some expected, some actual => do
      checkDepth expected actual
      return actual
  | some expected, none => return expected
  | none, some actual => return actual
  | none, none => return 0

/-- Gives a label its position, and returns the depth there.  `current` is the
depth of the code before it, if control can come from there. -/
def place (label : Label) (current : Option Nat) : Labelling Nat := do
  match ← state label with
  | .placed _ => throw (.labelPlacedTwice label)
  | .pending recorded =>
      let depth ← depthAt recorded current
      modify fun t => t.set label (.placed depth)
      return depth

/-- Fails at the first label without a position. -/
def verify (t : LabelTable) : Except Fault Unit :=
  match t.states.toList.findIdx? LabelState.isPending with
  | some id => .error (.labelUnplaced ⟨id⟩)
  | none => .ok ()

/-! ### What the operations do -/

theorem run_state (t : LabelTable) (label : Label) :
    (state label).run t = match t.states[label.id]? with
      | some s => .ok s t
      | none => .error (.labelUnplaced label) t := by
  rw [state, EStateM.run_bind]
  show (match t.states[label.id]? with
    | some s => (pure s : Labelling LabelState)
    | none => throw (Fault.labelUnplaced label)).run t = _
  cases t.states[label.id]? <;> rfl

/-- The check of two depths leaves the table alone. -/
theorem run_checkDepth (t : LabelTable) (expected actual : Nat) :
    (checkDepth expected actual).run t
      = if expected = actual then .ok () t else .error (.stackImbalance expected actual) t := by
  unfold checkDepth
  split <;> rfl

/-- There is room for a new label, or the table stays as it is. -/
theorem run_create (t : LabelTable) :
    create.run t = if t.size < limit then .ok ⟨t.size⟩ ⟨t.states.push (.pending none)⟩
      else .error .tooManyLabels t := by
  rw [create, EStateM.run_bind]
  show (if t.size < limit then _ else (throw _ : Labelling Label)).run t = _
  split <;> rfl

/-- A jump sets the depth of its label, or it agrees with the depth that the
label has, or it is refused. -/
theorem run_reference (t : LabelTable) (label : Label) (depth : Nat) :
    (reference label depth).run t = match t.states[label.id]? with
      | none => .error (.labelUnplaced label) t
      | some (.pending none) => .ok () (t.set label (.pending (some depth)))
      | some (.pending (some expected)) | some (.placed expected) =>
          if expected = depth then .ok () t else .error (.stackImbalance expected depth) t := by
  rw [reference, EStateM.run_bind, run_state]
  cases t.states[label.id]? with
  | none => rfl
  | some s =>
      rcases s with (_ | expected) | expected
      · rfl
      · exact run_checkDepth t expected depth
      · exact run_checkDepth t expected depth

/-- To find the depth at a label changes nothing. -/
theorem run_depthAt (t : LabelTable) (recorded current : Option Nat) :
    (depthAt recorded current).run t = match recorded, current with
      | some expected, some actual =>
          if expected = actual then .ok actual t else .error (.stackImbalance expected actual) t
      | some expected, none => .ok expected t
      | none, some actual => .ok actual t
      | none, none => .ok 0 t := by
  rcases recorded with _ | expected <;> rcases current with _ | actual
  · rfl
  · rfl
  · rfl
  · rw [depthAt, EStateM.run_bind, run_checkDepth]
    by_cases heq : expected = actual
    · simp only [if_pos heq]
      rfl
    · simp only [if_neg heq]

/-- A label without position gets one, and the depth that its jumps and the code
before it agree on. -/
theorem run_place (t : LabelTable) (label : Label) (current : Option Nat) :
    (place label current).run t = match t.states[label.id]? with
      | none => .error (.labelUnplaced label) t
      | some (.placed _) => .error (.labelPlacedTwice label) t
      | some (.pending recorded) =>
          match (depthAt recorded current).run t with
          | .ok depth t => .ok depth (t.set label (.placed depth))
          | .error fault t => .error fault t := by
  rw [place, EStateM.run_bind, run_state]
  cases t.states[label.id]? with
  | none => rfl
  | some s =>
      cases s with
      | placed depth => rfl
      | pending recorded =>
          dsimp only
          rw [EStateM.run_bind]
          cases (depthAt recorded current).run t <;> rfl

/-! ### Where they succeed and where they fail -/

variable {t t' : LabelTable} {label : Label} {depth : Nat} {current : Option Nat}

theorem size_set (t : LabelTable) (label : Label) (s : LabelState) :
    (t.set label s).size = t.size := by
  simp [size, set]

/-- A new label has the number that the table had labels. -/
theorem create_eq_ok (h : create.run t = .ok label t') :
    label.id = t.size ∧ t'.states = t.states.push (.pending none) := by
  rw [run_create] at h
  split at h
  · cases h
    exact ⟨rfl, rfl⟩
  · cases h

/-- A jump sets the depth of its label, or it has the depth that the label has. -/
theorem reference_eq_ok (h : (reference label depth).run t = .ok () t') :
    (t.states[label.id]? = some (.pending none) ∧ t' = t.set label (.pending (some depth))) ∨
      (t.states[label.id]? = some (.pending (some depth)) ∨
        t.states[label.id]? = some (.placed depth)) ∧ t' = t := by
  rw [run_reference] at h
  cases hstate : t.states[label.id]? with
  | none =>
      rw [hstate] at h
      cases h
  | some s =>
      rcases s with (_ | expected) | expected
      · rw [hstate] at h
        cases h
        exact .inl ⟨rfl, rfl⟩
      all_goals
        simp only [hstate] at h
        split at h
        · cases h
          simp [‹expected = depth›]
        · cases h

/-- The depth at a label is that of the jumps to it and that of the code before
it. -/
theorem depthAt_eq_ok {recorded : Option Nat}
    (h : (depthAt recorded current).run t = .ok depth t') :
    ((∀ d ∈ recorded, d = depth) ∧ ∀ d ∈ current, d = depth) ∧ t' = t := by
  rw [run_depthAt] at h
  rcases recorded with _ | expected <;> rcases current with _ | actual
  · cases h
    simp
  · cases h
    simp
  · cases h
    simp
  · dsimp only at h
    split at h
    · cases h
      simp [‹expected = _›]
    · cases h

/-- Only a label without position is placed. -/
theorem place_eq_ok (h : (place label current).run t = .ok depth t') :
    ∃ recorded, t.states[label.id]? = some (.pending recorded) ∧
      ((∀ d ∈ recorded, d = depth) ∧ ∀ d ∈ current, d = depth) ∧
      t' = t.set label (.placed depth) := by
  rw [run_place] at h
  cases hstate : t.states[label.id]? with
  | none =>
      rw [hstate] at h
      cases h
  | some s =>
      simp only [hstate] at h
      cases s with
      | placed _ => cases h
      | pending recorded =>
          dsimp only at h
          split at h
          · obtain ⟨hagree, rfl⟩ := depthAt_eq_ok ‹_›
            cases h
            exact ⟨recorded, rfl, hagree, rfl⟩
          · cases h

/-- Jumps create no labels. -/
theorem size_reference (h : (reference label depth).run t = .ok () t') : t'.size = t.size := by
  rcases reference_eq_ok h with ⟨-, rfl⟩ | ⟨-, rfl⟩
  · exact size_set t label _
  · rfl

/-- Placing a label creates none. -/
theorem size_place (h : (place label current).run t = .ok depth t') : t'.size = t.size := by
  obtain ⟨_, -, -, rfl⟩ := place_eq_ok h
  exact size_set t label _

/-- A label that cannot be created leaves the table as it was. -/
theorem create_eq_error {fault : Fault} (h : create.run t = .error fault t') : t' = t := by
  rw [run_create] at h
  split at h
  · cases h
  · cases h
    rfl

/-- A jump that is refused leaves the table as it was. -/
theorem reference_eq_error {fault : Fault}
    (h : (reference label depth).run t = .error fault t') : t' = t := by
  rw [run_reference] at h
  split at h
  · cases h
    rfl
  · cases h
  all_goals
    split at h
    · cases h
    · cases h
      rfl

theorem depthAt_eq_error {recorded : Option Nat} {fault : Fault}
    (h : (depthAt recorded current).run t = .error fault t') : t' = t := by
  rw [run_depthAt] at h
  split at h
  · split at h
    · cases h
    · cases h
      rfl
  all_goals cases h

/-- A label that cannot be placed leaves the table as it was: the depths are
compared before the position is stored. -/
theorem place_eq_error {fault : Fault}
    (h : (place label current).run t = .error fault t') : t' = t := by
  rw [run_place] at h
  split at h
  · cases h
    rfl
  · cases h
    rfl
  · split at h
    · cases h
    · obtain rfl := depthAt_eq_error ‹_›
      cases h
      rfl

end LabelTable

end StackLowering
