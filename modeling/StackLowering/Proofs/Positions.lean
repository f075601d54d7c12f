import Mathlib.Data.List.Nodup
import StackLowering.Code.Listing
import StackLowering.Proofs.Telling

/-!
Where labels stand, and how the listing shows it.

* `Code.labelPosition?_eq_some_iff`: the position of a label is that of its last placement.
* `Code.mem_labelsAt`, `Code.pairwise_labelsAt`: the labels at a position are those with this
  position, in the order of their numbers.
* `Code.Column.labels`: the labels that a reader finds in the label column of a line.
* `Code.join_lines`: the loop over the addresses shows one line for each instruction, and one more
  if labels stand at the end.
* `Code.listing_shows_labels`: **the listing loses no label and no instruction**.
-/

namespace StackLowering

open Text (alignRight)

namespace Code

variable {c : Code} {items : List Event} {label : Label} {p : Nat}

/-! ### Positions by label -/

/-- **A label stands where it was placed last.** -/
theorem labelPosition?_eq_some_iff :
    (Sink.tell empty items).labelPosition? label = some p ↔
      ∃ before after, items = before ++ .placed label :: after ∧ .placed label ∉ after ∧
        p = (Sink.tell empty before).size := by
  simp only [size_tell, labelPosition?_tell_empty, Event.position?_eq_some_iff]
  rfl

/-- No label stands beyond the end. -/
lemma position_le_size (h : (Sink.tell empty items).labelPosition? label = some p) :
    p ≤ (Sink.tell empty items).size := by
  obtain ⟨before, after, rfl, -, rfl⟩ := labelPosition?_eq_some_iff.mp h
  rw [size_tell, size_tell, Event.extent_append]
  omega

/-! ### Labels by position -/

/-- The labels at a position are the ones that have it. -/
lemma mem_labelsAt : label ∈ c.labelsAt p ↔ c.labelPosition? label = some p := by
  rw [labelsAt, List.mem_mergeSort, List.mem_map, labelPosition?,
    ← Std.HashMap.mem_toList_iff_getElem?_eq_some]
  constructor
  · rintro ⟨⟨other, position⟩, hmem, rfl⟩
    obtain ⟨hmem, hposition⟩ := List.mem_filter.mp hmem
    rw [← beq_iff_eq.mp hposition]
    exact hmem
  · exact fun h => ⟨(label, p), List.mem_filter.mpr ⟨h, beq_self_eq_true p⟩, rfl⟩

/-- Every label has one position, so that none is there twice. -/
lemma nodup_labelsAt (c : Code) (p : Nat) : (c.labelsAt p).Nodup := by
  rw [labelsAt, List.nodup_mergeSort]
  have hkeys : (c.positions.toList.map Prod.fst).Nodup := by
    rw [Std.HashMap.map_fst_toList_eq_keys]
    exact Std.HashMap.nodup_keys
  exact hkeys.sublist (List.filter_sublist.map Prod.fst)

/-- The labels at a position come in the order of their numbers, whatever the order in which they
are found. -/
lemma pairwise_labelsAt (c : Code) (p : Nat) :
    (c.labelsAt p).Pairwise fun l l' => l.id < l'.id := by
  have hsorted : (c.labelsAt p).Pairwise fun l l' => decide (l.id ≤ l'.id) = true := by
    refine List.pairwise_mergeSort (fun l l' l'' h h' => ?_) (fun l l' => ?_) _
    · exact decide_eq_true (Nat.le_trans (of_decide_eq_true h) (of_decide_eq_true h'))
    · simpa using Nat.le_total l.id l'.id
  -- sorting leaves equal numbers side by side, but no label is there twice
  refine (hsorted.and (c.nodup_labelsAt p)).imp fun {l l'} h => ?_
  have hne : l.id ≠ l'.id := fun hid => h.2 (Label.eq_of_id_eq hid)
  exact Nat.lt_of_le_of_ne (of_decide_eq_true h.1) hne

/-- Labels in order that are the ones at a position are what is found there. -/
lemma labelsAt_eq {labels : List Label} (hsorted : labels.Pairwise fun l l' => l.id < l'.id)
    (hmem : ∀ label, label ∈ labels ↔ c.labelPosition? label = some p) : c.labelsAt p = labels := by
  have hnodup : labels.Nodup :=
    hsorted.imp fun hlt heq => Nat.ne_of_lt hlt (congrArg Label.id heq)
  have hperm : (c.labelsAt p).Perm labels :=
    (List.perm_ext_iff_of_nodup (c.nodup_labelsAt p) hnodup).mpr fun label =>
      mem_labelsAt.trans (hmem label).symm
  exact hperm.eq_of_pairwise (fun l l' _ _ hlt hgt => absurd hlt (Nat.lt_asymm hgt))
    (c.pairwise_labelsAt p) hsorted

/-! ### The label column -/

/-- The label that a text names. -/
def Column.label? : List Char → Option Label
  | 'L' :: digits => some ⟨Nat.ofDigitChars 10 digits 0⟩
  | _ => none

/-- The labels that a reader finds in a label column: names with commas between them, and a colon
at the end. -/
def Column.labels (column : String) : List Label :=
  let names := column.toList.dropWhile (· = ' ')
  if names = [] then [] else (names.dropLast.splitOn ',').filterMap label?

lemma toList_name (l : Label) : l.name.toList = 'L' :: Nat.toDigits 10 l.id := by
  rw [Label.name, String.toList_append, Nat.toList_repr]
  rfl

lemma label?_name (l : Label) : Column.label? l.name.toList = some l := by
  rw [toList_name, Column.label?, Nat.ofDigitChars_ten_toDigits]

lemma comma_notMem_name (l : Label) : ',' ∉ l.name.toList := by
  rw [toList_name, List.mem_cons, not_or]
  refine ⟨by decide, fun h => ?_⟩
  have hdigit := Nat.isDigit_of_mem_toDigits (by decide) (by decide) h
  exact absurd hdigit (by decide)

/-- A heading with labels is their names, with commas between them and a colon at the end. -/
lemma toList_heading {labels : List Label} (h : labels ≠ []) :
    (heading labels).toList = [','].intercalate (labels.map fun l => l.name.toList) ++ [':'] := by
  rw [heading, if_neg (mt List.isEmpty_iff.mp h), String.toList_append, String.toList_intercalate,
    List.map_map]
  rfl

/-- A heading is empty exactly where there are no labels. -/
lemma heading_isEmpty_iff {labels : List Label} :
    (heading labels).isEmpty = true ↔ labels = [] := by
  rw [String.isEmpty_iff]
  constructor
  · intro hempty
    by_contra h
    have hcolon := toList_heading h
    rw [hempty] at hcolon
    simp at hcolon
  · rintro rfl
    rfl

/-- Blanks at the left of a column do not matter to the reader. -/
lemma Column.labels_alignRight (width : Nat) (s : String) :
    labels (alignRight width s) = labels s := by
  have hdrop : (alignRight width s).toList.dropWhile (· = ' ') = s.toList.dropWhile (· = ' ') := by
    rw [alignRight, String.toList_ofList, List.leftpad]
    refine List.dropWhile_append_of_pos fun c hc => ?_
    exact decide_eq_true (List.eq_of_mem_replicate hc)
  rw [labels, hdrop, labels]

/-- **The labels of a line are read back from its label column.** -/
theorem labels_column (labels : List Label) (width : Nat) :
    Column.labels (alignRight width (heading labels)) = labels := by
  rw [Column.labels_alignRight, Column.labels]
  by_cases h : labels = []
  · have hheading : heading labels = "" := if_pos (List.isEmpty_iff.mpr h)
    rw [hheading, h]
    rfl
  · have hheading := toList_heading h
    have hblank : (heading labels).toList.dropWhile (· = ' ') = (heading labels).toList := by
      obtain ⟨l, ls, hls⟩ := List.exists_cons_of_ne_nil h
      rw [hheading, hls]
      cases ls <;> simp [toList_name]
    have hcomma : ∀ name ∈ labels.map fun l => l.name.toList, ',' ∉ name := by
      intro name hname
      obtain ⟨l, -, rfl⟩ := List.mem_map.mp hname
      exact comma_notMem_name l
    rw [hblank, hheading, if_neg (by simp), List.dropLast_concat,
      List.splitOn_intercalate _ hcomma (mt List.map_eq_nil_iff.mp h), List.filterMap_map]
    exact (List.filterMap_congr fun l _ => label?_name l).trans List.filterMap_some

/-! ### The lines -/

/-- The number of lines in the instruction part: one for each instruction, and one more if labels
stand at the end. -/
def lineCount (c : Code) : Nat :=
  c.size + if c.labelsAt c.size = [] then 0 else 1

/-- A line shows its address, the labels there, and the instruction if there is one. -/
lemma line_eq (hp : p < c.lineCount) :
    c.line p = "    " ++ alignRight 4 p.repr ++ " " ++ alignRight 6 (heading (c.labelsAt p))
      ++ (c.instructions[p]?.elim "" fun i => "  " ++ i.text) ++ "\n" := by
  rw [line]
  cases hi : c.instructions[p]? with
  | some i =>
      simp only [Option.elim_some, String.append_assoc]
  | none =>
      -- the line behind the last instruction, which is there for its labels
      have hend : p = c.size := by
        have hle : c.size ≤ p := Array.getElem?_eq_none_iff.mp hi
        rw [lineCount] at hp
        split_ifs at hp <;> omega
      have hlabels : c.labelsAt p ≠ [] := by
        intro hnone
        rw [lineCount, ← hend, if_pos hnone] at hp
        omega
      simp only [if_neg (mt heading_isEmpty_iff.mp hlabels), Option.elim_none, String.append_empty]

/-- Behind the last instruction nothing is shown if no label stands there. -/
lemma line_end (h : c.labelsAt c.size = []) : c.line c.size = "" := by
  have hnone : c.instructions[c.size]? = none := Array.getElem?_eq_none (Nat.le_refl _)
  rw [line, hnone]
  exact if_pos (heading_isEmpty_iff.mpr h)

/-- **The loop over the addresses**, which runs to the one behind the last instruction, shows the
lines in order. -/
lemma join_lines (c : Code) :
    String.join ((List.range (c.size + 1)).map c.line)
      = String.join ((List.range c.lineCount).map c.line) := by
  by_cases h : c.labelsAt c.size = []
  · have hcount : c.lineCount = c.size := by simp [lineCount, h]
    rw [hcount, List.range_succ, List.map_append, List.map_singleton, line_end h,
      String.join_append, String.join_cons, String.join_nil, String.append_empty,
      String.append_empty]
  · have hcount : c.lineCount = c.size + 1 := by simp [lineCount, h]
    rw [hcount]

/-- Every label that has a position has a line, and it shows the label. -/
lemma mem_lines_iff (hbound : ∀ p, c.labelPosition? label = some p → p ≤ c.size) :
    label ∈ (List.range c.lineCount).flatMap c.labelsAt ↔ (c.labelPosition? label).isSome := by
  rw [List.mem_flatMap, Option.isSome_iff_exists]
  constructor
  · rintro ⟨p, -, hp⟩
    exact ⟨p, mem_labelsAt.mp hp⟩
  · rintro ⟨p, hp⟩
    refine ⟨p, List.mem_range.mpr ?_, mem_labelsAt.mpr hp⟩
    rw [lineCount]
    rcases Nat.lt_or_eq_of_le (hbound p hp) with hlt | rfl
    · exact Nat.lt_add_right _ hlt
    · rw [if_neg (List.ne_nil_of_mem (mem_labelsAt.mpr hp))]
      exact Nat.lt_succ_self _

/-- No label is shown in two lines. -/
lemma nodup_lines (c : Code) (n : Nat) : ((List.range n).flatMap c.labelsAt).Nodup := by
  refine List.nodup_flatMap.mpr ⟨fun p _ => c.nodup_labelsAt p, ?_⟩
  refine List.nodup_range.imp fun hne label hp hq => hne ?_
  exact Option.some.inj ((mem_labelsAt.mp hp).symm.trans (mem_labelsAt.mp hq))

/-- **The listing loses no label and no instruction.**  Take code that has been told any
instructions and placements of labels.  The position of a label is the number of instructions at
its last placement; it is at most the number of all instructions, and exactly the labels that were
never placed have none.  The labels at a position are the ones that have it, in the strict order of
their numbers.  The instruction part of the listing has a line for each instruction, by address, and
one more without an instruction if some label stands at the end.  A reader finds in the label column
of a line the labels at its address, and in all the columns every label that was placed, once. -/
theorem listing_shows_labels (items : List Event) :
    let c := Sink.tell empty items
    (∀ label p, c.labelPosition? label = some p ↔
        ∃ before after, items = before ++ .placed label :: after ∧ .placed label ∉ after ∧
          p = (Sink.tell empty before).size) ∧
      (∀ label, c.labelPosition? label = none ↔ .placed label ∉ items) ∧
      (∀ label p, c.labelPosition? label = some p → p ≤ c.size) ∧
      (∀ p, (c.labelsAt p).Pairwise (fun l l' => l.id < l'.id) ∧
        ∀ label, label ∈ c.labelsAt p ↔ c.labelPosition? label = some p) ∧
      ∃ columns : List String,
        c.listing = "Code \x7b\n" ++ constantLines c.pool ++ "  instructions:\n"
          ++ String.join (columns.mapIdx fun p column =>
              "    " ++ alignRight 4 p.repr ++ " " ++ column
                ++ (c.instructions[p]?.elim "" fun i => "  " ++ i.text) ++ "\n")
          ++ "\x7d" ∧
        columns.length = c.size + (if c.labelsAt c.size = [] then 0 else 1) ∧
        (∀ p column, columns[p]? = some column → Column.labels column = c.labelsAt p) ∧
        (columns.flatMap Column.labels).Nodup ∧
        ∀ label, label ∈ columns.flatMap Column.labels ↔ .placed label ∈ items := by
  intro c
  have hnone (label : Label) : c.labelPosition? label = none ↔ .placed label ∉ items := by
    rw [labelPosition?_tell_empty, Event.position?_eq_none_iff]
  let column (p : Nat) : String := alignRight 6 (heading (c.labelsAt p))
  have hread (p : Nat) : Column.labels (column p) = c.labelsAt p := labels_column (c.labelsAt p) 6
  have hflat : ((List.range c.lineCount).map column).flatMap Column.labels
      = (List.range c.lineCount).flatMap c.labelsAt := by
    rw [List.flatMap_map]
    exact congrArg (fun f => List.flatMap f _) (funext hread)
  refine ⟨fun label p => labelPosition?_eq_some_iff, hnone, fun label p => position_le_size,
    fun p => ⟨c.pairwise_labelsAt p, fun label => mem_labelsAt⟩,
    (List.range c.lineCount).map column, ?_, ?_, fun p text htext => ?_, ?_, fun label => ?_⟩
  · rw [listing, join_lines]
    congr 3
    refine List.ext_getElem (by simp) fun p hp hp' => ?_
    rw [List.getElem_mapIdx, List.getElem_map, List.getElem_map, List.getElem_range]
    exact line_eq (by simpa using hp)
  · rw [List.length_map, List.length_range, lineCount]
  · obtain ⟨hp, rfl⟩ := List.getElem?_eq_some_iff.mp htext
    rw [List.getElem_map, List.getElem_range]
    exact hread p
  · rw [hflat]
    exact c.nodup_lines _
  · rw [hflat, mem_lines_iff fun p => position_le_size, Option.isSome_iff_ne_none, ne_eq, hnone,
      not_not]

/-- A label that moves, a label that moves to the end, and a second one there. -/
theorem listing_shows_labels_moved :
    let items : List Event := [.placed ⟨2⟩, .placed ⟨0⟩, .emitted .dup, .placed ⟨2⟩, .emitted .pop,
      .placed ⟨1⟩, .placed ⟨0⟩]
    let c := Sink.tell empty items
    c.labelPosition? ⟨2⟩ = some 1 ∧ c.labelPosition? ⟨0⟩ = some 2 ∧ c.labelPosition? ⟨3⟩ = none ∧
      ⟨0⟩ ∈ c.labelsAt 2 ∧ ⟨2⟩ ∉ c.labelsAt 0 ∧
      c.listing = "Code \x7b\n  constants: []\n  instructions:\n       0         dup\n"
        ++ "       1    L2:  pop\n       2 L0,L1:\n\x7d" := by
  intro items c
  have hposition (label : Label) : c.labelPosition? label
      = if label = ⟨0⟩ ∨ label = ⟨1⟩ then some 2 else if label = ⟨2⟩ then some 1 else none := by
    rw [labelPosition?_tell_empty]
    by_cases h₀ : label = ⟨0⟩
    · rw [h₀]
      rfl
    by_cases h₁ : label = ⟨1⟩
    · rw [h₁]
      rfl
    by_cases h₂ : label = ⟨2⟩
    · rw [h₂]
      rfl
    simp [items, Event.position?, h₀, h₁, h₂, Ne.symm h₀, Ne.symm h₁, Ne.symm h₂]
  have hat₀ : c.labelsAt 0 = [] := labelsAt_eq .nil (by grind)
  have hat₁ : c.labelsAt 1 = [⟨2⟩] := labelsAt_eq (by simp) (by grind)
  have hat₂ : c.labelsAt 2 = [⟨0⟩, ⟨1⟩] := labelsAt_eq (by simp) (by grind)
  obtain ⟨hsome, hnone, -, hat, -⟩ := listing_shows_labels items
  have htwo : c.labelPosition? ⟨2⟩ = some 1 :=
    (hsome _ _).mpr ⟨[.placed ⟨2⟩, .placed ⟨0⟩, .emitted .dup], _, rfl, by simp, rfl⟩
  have hzero : c.labelPosition? ⟨0⟩ = some 2 :=
    (hsome _ _).mpr ⟨[.placed ⟨2⟩, .placed ⟨0⟩, .emitted .dup, .placed ⟨2⟩, .emitted .pop,
      .placed ⟨1⟩], _, rfl, by simp, rfl⟩
  refine ⟨htwo, hzero, (hnone _).mpr (by simp [items]), ((hat 2).2 _).mpr hzero, fun h => ?_, ?_⟩
  · have hmoved := ((hat 0).2 _).mp h
    rw [htwo] at hmoved
    cases hmoved
  · have hrange : List.range (c.size + 1) = [0, 1, 2] := rfl
    rw [listing, hrange, List.map_cons, List.map_cons, List.map_cons, line, line, line, hat₀, hat₁,
      hat₂]
    decide +kernel

end Code

end StackLowering
