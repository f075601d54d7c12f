import Mathlib.Tactic.Lemma
import Mathlib.Tactic.SplitIfs
import StackLowering.Proofs.Runs

/-!
What a table of labels answers in the course of its life.

* `LabelTable.Request`, `LabelTable.answer`: an operation with its arguments, and what comes of
  it, the table included that it leaves where it fails.
* `LabelTable.history`, `LabelTable.afterAll`: the answers to a sequence of requests, and the table
  at its end.
* `LabelTable.verify_eq_ok_iff`, `LabelTable.verify_eq_error_iff`: what the final check finds.
* `LabelTable.Learns`, `LabelTable.answer_cases`: what a table knows after one request.
* `LabelTable.Records`, `LabelTable.Records.history`: what it knows after all requests agrees with
  the answers to them.
* `LabelTable.one_depth_per_label`: in every history a label has one depth and one position, and
  the final check finds the first label without position.
-/

namespace StackLowering

namespace LabelTable

/-! ### Requests and answers -/

/-- An operation on a table, with its arguments. -/
inductive Request where
  | create
  | reference (label : Label) (depth : Nat)
  | place (label : Label) (current : Option Nat)
  | verify
  deriving DecidableEq, Repr

/-- What an operation that succeeds returns. -/
inductive Reply where
  | created (label : Label)
  | recorded
  | placed (depth : Nat)
  | verified
  deriving DecidableEq, Repr

/-- What is done for a request. -/
def Request.action : Request → Labelling Reply
  | .create => return .created (← LabelTable.create)
  | .reference label depth => do
      LabelTable.reference label depth
      return .recorded
  | .place label current => return .placed (← LabelTable.place label current)
  | .verify => do
      match (← get).verify with
      | .ok _ => return .verified
      | .error fault => throw fault

/-- The answer to a request, and the table that it leaves, whether or not it succeeds. -/
def answer (t : LabelTable) (request : Request) : Except Fault Reply × LabelTable :=
  match request.action.run t with
  | .ok reply t' => (.ok reply, t')
  | .error fault t' => (.error fault, t')

/-- A request together with the answer to it. -/
structure Entry where
  request : Request
  answer : Except Fault Reply

/-- The requests of a sequence with the answers to them. -/
def history (t : LabelTable) : List Request → List Entry
  | [] => []
  | request :: requests =>
      ⟨request, (t.answer request).1⟩ :: (t.answer request).2.history requests

/-- The table after a sequence of requests. -/
def afterAll (t : LabelTable) (requests : List Request) : LabelTable :=
  requests.foldl (fun t request => (t.answer request).2) t

namespace Entry

/-- The label that has been created. -/
def created? : Entry → Option Label
  | ⟨.create, .ok (.created label)⟩ => some label
  | _ => none

/-- The label that has been placed. -/
def placed? : Entry → Option Label
  | ⟨.place label _, .ok _⟩ => some label
  | _ => none

/-- The depths at a label that a request has been answered with or has succeeded with: that of a
jump to it, or that of its position and that of the code before it. -/
def depths (label : Label) : Entry → List Nat
  | ⟨.reference target depth, .ok _⟩ => if target = label then [depth] else []
  | ⟨.place target current, .ok (.placed depth)⟩ =>
      if target = label then depth :: current.toList else []
  | _ => []

end Entry

/-! ### States of labels -/

variable {t t' : LabelTable} {label : Label} {depth : Nat}

lemma states_set_self {x y : LabelState} (h : t.states[label.id]? = some y) :
    (t.set label x).states[label.id]? = some x := by
  have hlt : label.id < t.states.size := (Array.getElem?_eq_some_iff.mp h).1
  simp [set, hlt]

lemma states_set_of_ne {other : Label} (x : LabelState) (h : label ≠ other) :
    (t.set label x).states[other.id]? = t.states[other.id]? := by
  have hid : label.id ≠ other.id := fun hid => h (Label.eq_of_id_eq hid)
  simp [set, hid]

/-! ### The final check -/

/-- The label has been given a position. -/
def HasPosition (t : LabelTable) (label : Label) : Prop :=
  ∃ depth, t.states[label.id]? = some (.placed depth)

lemma isPending_eq_false {x : LabelState} : x.isPending = false ↔ ∃ depth, x = .placed depth := by
  cases x <;> simp [LabelState.isPending]

lemma hasPosition_iff {id : Nat} (h : id < t.states.toList.length) :
    t.HasPosition ⟨id⟩ ↔ t.states.toList[id].isPending = false := by
  have hstate : t.states[id]? = some t.states.toList[id] := by
    rw [← Array.getElem?_toList, List.getElem?_eq_getElem h]
  rw [isPending_eq_false, HasPosition, hstate]
  simp only [Option.some.injEq]

/-- The check succeeds if every label has a position. -/
lemma verify_eq_ok_iff :
    t.verify = .ok () ↔ ∀ label : Label, label.id < t.size → t.HasPosition label := by
  unfold verify
  cases hfind : t.states.toList.findIdx? LabelState.isPending with
  | none =>
      refine ⟨fun _ label hlt => ?_, fun _ => rfl⟩
      exact (hasPosition_iff hlt).mpr
        (List.findIdx?_eq_none_iff.mp hfind _ (List.getElem_mem hlt))
  | some id =>
      obtain ⟨hlt, hpending, -⟩ := List.findIdx?_eq_some_iff_getElem.mp hfind
      refine ⟨fun h => (nomatch h), fun h => ?_⟩
      rw [(hasPosition_iff hlt).mp (h ⟨id⟩ hlt)] at hpending
      cases hpending

/-- The check reports the first label without position. -/
lemma verify_eq_error_iff {fault : Fault} :
    t.verify = .error fault ↔ ∃ label, fault = .labelUnplaced label ∧ label.id < t.size ∧
      ¬ t.HasPosition label ∧ ∀ other : Label, other.id < label.id → t.HasPosition other := by
  unfold verify
  cases hfind : t.states.toList.findIdx? LabelState.isPending with
  | none =>
      refine ⟨fun h => (nomatch h), ?_⟩
      rintro ⟨label, -, hlt, hnot, -⟩
      exact absurd ((hasPosition_iff hlt).mpr
        (List.findIdx?_eq_none_iff.mp hfind _ (List.getElem_mem hlt))) hnot
  | some id =>
      obtain ⟨hlt, hpending, hbefore⟩ := List.findIdx?_eq_some_iff_getElem.mp hfind
      have hnot : ¬ t.HasPosition ⟨id⟩ := by
        rw [hasPosition_iff hlt, hpending]
        exact Bool.false_ne_true.symm
      have hplaced (other : Label) (hother : other.id < id) : t.HasPosition other :=
        (hasPosition_iff (Nat.lt_trans hother hlt)).mpr (by simpa using hbefore other.id hother)
      constructor
      · rintro ⟨⟩
        exact ⟨⟨id⟩, rfl, hlt, hnot, hplaced⟩
      · -- two labels that are both the first one without position are the same
        rintro ⟨label, rfl, -, hlabel, hfirst⟩
        rcases Nat.lt_trichotomy label.id id with hless | rfl | hmore
        · exact absurd (hplaced label hless) hlabel
        · rfl
        · exact absurd (hfirst ⟨id⟩ hmore) hnot

/-! ### What a table knows -/

/-- The depth at a label, once a jump or its position has fixed it. -/
def depth? (t : LabelTable) (label : Label) : Option Nat :=
  match t.states[label.id]? with
  | some (.pending recorded) => recorded
  | some (.placed depth) => some depth
  | none => none

/-- What a table is after one request.  A label is created with the next number, a label is placed
that had no position, and the depths that the answer mentions are known.  All that was known before
still is. -/
structure Learns (t t' : LabelTable) (entry : Entry) : Prop where
  created : (entry.created? = none ∧ t'.size = t.size) ∨
    (entry.created? = some ⟨t.size⟩ ∧ t'.size = t.size + 1)
  keeps : ∀ label depth, t.depth? label = some depth → t'.depth? label = some depth
  depths : ∀ label, ∀ depth ∈ entry.depths label, t'.depth? label = some depth
  placed : ∀ label, t'.HasPosition label ↔ t.HasPosition label ∨ entry.placed? = some label
  unplaced : ∀ label, entry.placed? = some label → ¬ t.HasPosition label

namespace Learns

/-- An answer that tells nothing. -/
lemma silent {entry : Entry} (hcreated : entry.created? = none) (hplaced : entry.placed? = none)
    (hdepths : ∀ label, entry.depths label = []) : Learns t t entry where
  created := .inl ⟨hcreated, rfl⟩
  keeps _ _ h := h
  depths label depth hmem := by
    rw [hdepths] at hmem
    cases hmem
  placed label := by simp [hplaced]
  unplaced label h := by
    rw [hplaced] at h
    cases h

lemma refused (t : LabelTable) (request : Request) (fault : Fault) :
    Learns t t ⟨request, .error fault⟩ := by
  cases request <;> exact silent rfl rfl fun _ => rfl

/-- A new label has neither a depth nor a position. -/
lemma create (h : LabelTable.create.run t = .ok label t') :
    Learns t t' ⟨.create, .ok (.created label)⟩ := by
  obtain ⟨hid, hstates⟩ := create_eq_ok h
  have hstate (other : Label) : t'.states[other.id]? = t.states[other.id]? ∨
      (t.states[other.id]? = none ∧ t'.states[other.id]? = some (.pending none)) := by
    rw [hstates, Array.getElem?_push]
    split_ifs with hnew
    · exact .inr ⟨Array.getElem?_eq_none (Nat.le_of_eq hnew.symm), rfl⟩
    · exact .inl rfl
  have hsize : t'.size = t.size + 1 := by
    rw [size, hstates, Array.size_push, size]
  refine ⟨.inr ⟨congrArg some (Label.eq_of_id_eq hid), hsize⟩, fun other depth hdepth => ?_,
    fun other depth hmem => absurd hmem List.not_mem_nil, fun other => ?_, fun other hother => ?_⟩
  · rcases hstate other with hold | ⟨hnone, -⟩
    · rw [depth?, hold]
      exact hdepth
    · rw [depth?, hnone] at hdepth
      cases hdepth
  · rcases hstate other with hold | ⟨hnone, hnew⟩
    · simp [HasPosition, hold, Entry.placed?]
    · simp [HasPosition, hnone, hnew, Entry.placed?]
  · cases hother

/-- A request about one label, which has been pending, gives it another state.  Nothing changes for
the others. -/
lemma update {entry : Entry} {recorded : Option Nat} {x : LabelState}
    (hstate : t.states[label.id]? = some (.pending recorded))
    (hcreated : entry.created? = none) (hothers : ∀ other, label ≠ other → entry.depths other = [])
    (hkeeps : ∀ depth ∈ recorded, (t.set label x).depth? label = some depth)
    (hdepths : ∀ depth ∈ entry.depths label, (t.set label x).depth? label = some depth)
    (hplaced : entry.placed? = if x.isPending then none else some label) :
    Learns t (t.set label x) entry := by
  have hself := states_set_self (x := x) hstate
  have hnot : ¬ t.HasPosition label := by
    rintro ⟨depth, hplaced⟩
    cases hstate.symm.trans hplaced
  refine ⟨.inl ⟨hcreated, size_set t label x⟩, fun other depth hdepth => ?_,
    fun other depth hmem => ?_, fun other => ?_, fun other hother => ?_⟩
  · by_cases heq : label = other
    · subst heq
      rw [depth?, hstate] at hdepth
      exact hkeeps depth hdepth
    · rw [depth?, states_set_of_ne x heq]
      exact hdepth
  · by_cases heq : label = other
    · subst heq
      exact hdepths depth hmem
    · rw [hothers other heq] at hmem
      cases hmem
  · by_cases heq : label = other
    · subst heq
      rw [HasPosition, hself, hplaced]
      cases x <;> simp [hnot, LabelState.isPending]
    · rw [HasPosition, states_set_of_ne x heq, hplaced]
      split_ifs <;> simp [HasPosition, heq]
  · rw [hplaced] at hother
    split_ifs at hother
    cases hother
    exact hnot

lemma reference (h : (LabelTable.reference label depth).run t = .ok () t') :
    Learns t t' ⟨.reference label depth, .ok .recorded⟩ := by
  have hothers (other : Label) (hne : label ≠ other) :
      Entry.depths other ⟨.reference label depth, .ok .recorded⟩ = [] := if_neg hne
  have hself : Entry.depths label ⟨.reference label depth, .ok .recorded⟩ = [depth] := if_pos rfl
  rcases reference_eq_ok h with ⟨hstate, rfl⟩ | ⟨hknown, rfl⟩
  · have hdepth : (t.set label (.pending (some depth))).depth? label = some depth := by
      rw [depth?, states_set_self hstate]
    refine update hstate rfl hothers (fun d hd => (nomatch hd)) (fun d hd => ?_) rfl
    rw [hself, List.mem_singleton] at hd
    rw [hd, hdepth]
  · -- a jump that agrees with what is known leaves the table as it is
    have hdepth : t'.depth? label = some depth := by
      rw [depth?]
      rcases hknown with hstate | hstate <;> rw [hstate]
    refine ⟨.inl ⟨rfl, rfl⟩, fun _ _ h => h, fun other d hd => ?_, fun other => ?_,
      fun other hother => (nomatch hother)⟩
    · by_cases heq : label = other
      · subst heq
        rw [hself, List.mem_singleton] at hd
        rw [hd, hdepth]
      · rw [hothers other heq] at hd
        cases hd
    · simp [Entry.placed?]

lemma place {current : Option Nat} (h : (LabelTable.place label current).run t = .ok depth t') :
    Learns t t' ⟨.place label current, .ok (.placed depth)⟩ := by
  obtain ⟨recorded, hstate, ⟨hrecorded, hcurrent⟩, rfl⟩ := place_eq_ok h
  have hknown : (t.set label (.placed depth)).depth? label = some depth := by
    rw [depth?, states_set_self hstate]
  refine update hstate rfl (fun other hne => if_neg hne) (fun d hd => ?_) (fun d hd => ?_) rfl
  · rw [hrecorded d hd, hknown]
  · have hmem : d ∈ depth :: current.toList := by
      rwa [Entry.depths, if_pos rfl] at hd
    rcases List.mem_cons.mp hmem with rfl | hd
    · exact hknown
    · rw [hcurrent d (Option.mem_toList.mp hd), hknown]

end Learns

/-- A request that is one operation, whose result is what the reply tells. -/
lemma answer_cases_of {α : Type} {request : Request} {operation : Labelling α} {reply : α → Reply}
    (haction : request.action = operation >>= fun a => pure (reply a))
    (herror : ∀ fault t', operation.run t = .error fault t' → t' = t)
    (hok : ∀ a t', operation.run t = .ok a t' → Learns t t' ⟨request, .ok (reply a)⟩) :
    (∃ fault, t.answer request = (.error fault, t)) ∨
      ∃ reply t', t.answer request = (.ok reply, t') ∧ Learns t t' ⟨request, .ok reply⟩ := by
  rw [answer, haction, EStateM.run_bind]
  cases hrun : operation.run t with
  | error fault t' =>
      obtain rfl := herror fault t' hrun
      exact .inl ⟨fault, rfl⟩
  | ok a t' => exact .inr ⟨reply a, t', rfl, hok a t' hrun⟩

/-- A request fails and the table stays as it is, or it succeeds and the table learns from it. -/
lemma answer_cases (t : LabelTable) (request : Request) :
    (∃ fault, t.answer request = (.error fault, t)) ∨
      ∃ reply t', t.answer request = (.ok reply, t') ∧ Learns t t' ⟨request, .ok reply⟩ := by
  cases request with
  | create => exact answer_cases_of rfl (fun _ _ => create_eq_error) fun _ _ => .create
  | reference label depth =>
      exact answer_cases_of rfl (fun _ _ => reference_eq_error) fun _ _ => .reference
  | place label current =>
      exact answer_cases_of rfl (fun _ _ => place_eq_error) fun _ _ => .place
  | verify =>
      -- the final check reads the table and does not write to it
      have hrun : Request.verify.action.run t = match t.verify with
          | .ok _ => .ok .verified t
          | .error fault => .error fault t := by
        rw [Request.action, EStateM.run_bind]
        show (match t.verify with
          | .ok _ => (pure .verified : Labelling Reply)
          | .error fault => throw fault).run t = _
        cases t.verify <;> rfl
      rw [answer, hrun]
      cases h : t.verify with
      | error fault => exact .inl ⟨fault, rfl⟩
      | ok u => exact .inr ⟨_, _, rfl, .silent rfl rfl fun _ => rfl⟩

/-- **One request.** -/
lemma Learns.answer (t : LabelTable) (request : Request) :
    Learns t (t.answer request).2 ⟨request, (t.answer request).1⟩ := by
  rcases t.answer_cases request with ⟨fault, h⟩ | ⟨reply, t', h, hlearns⟩
  · rw [h]
    exact .refused t request fault
  · rw [h]
    exact hlearns

lemma answer_eq_error {request : Request} {fault : Fault}
    (h : (t.answer request).1 = .error fault) : (t.answer request).2 = t := by
  rcases t.answer_cases request with ⟨_, hanswer⟩ | ⟨reply, t', hanswer, -⟩
  · rw [hanswer]
  · rw [hanswer] at h
    cases h

/-! ### What a history amounts to -/

/-- What a table knows is what the answers so far have told: its labels are those that were
created, those with a position are those that were placed, each of them once, and every depth that
was mentioned is the one that the table knows. -/
structure Records (t : LabelTable) (log : List Entry) : Prop where
  created : (log.filterMap Entry.created?).map Label.id = List.range t.size
  placed : ∀ label, t.HasPosition label ↔ label ∈ log.filterMap Entry.placed?
  once : (log.filterMap Entry.placed?).Nodup
  depths : ∀ label, ∀ entry ∈ log, ∀ depth ∈ entry.depths label, t.depth? label = some depth

namespace Records

variable {log : List Entry}

lemma empty : Records LabelTable.empty [] := by
  refine ⟨rfl, fun label => ?_, List.nodup_nil, fun label entry hentry => (nomatch hentry)⟩
  simp [HasPosition, LabelTable.empty]

/-- One more answer. -/
lemma learn {entry : Entry} (h : Records t log) (hlearns : Learns t t' entry) :
    Records t' (log ++ [entry]) := by
  refine ⟨?_, fun label => ?_, ?_, fun label e he depth hdepth => ?_⟩
  · rw [List.filterMap_append, List.map_append, h.created]
    rcases hlearns.created with ⟨hnone, hsize⟩ | ⟨hsome, hsize⟩
    · simp [hnone, hsize]
    · simp [hsome, hsize, List.range_succ]
  · rw [hlearns.placed, h.placed, List.filterMap_append, List.mem_append]
    cases hplaced : entry.placed? <;> simp [hplaced, eq_comm]
  · rw [List.filterMap_append]
    cases hplaced : entry.placed? with
    | none => simpa [hplaced] using h.once
    | some label =>
        -- what is placed had no position, so it has not been placed before
        have hnew := mt (h.placed label).mpr (hlearns.unplaced label hplaced)
        simp only [List.filterMap_cons, hplaced, List.filterMap_nil]
        refine List.nodup_append.mpr ⟨h.once, List.pairwise_singleton _ label, ?_⟩
        rintro other hmem _ hlabel rfl
        rw [List.mem_singleton.mp hlabel] at hmem
        exact hnew hmem
  · rcases List.mem_append.mp he with hold | hnew
    · exact hlearns.keeps label depth (h.depths label e hold depth hdepth)
    · rw [List.mem_singleton.mp hnew] at hdepth
      exact hlearns.depths label depth hdepth

/-- **All requests.** -/
lemma history (h : Records t log) (requests : List Request) :
    Records (t.afterAll requests) (log ++ t.history requests) := by
  induction requests generalizing t log with
  | nil =>
      rw [LabelTable.history, List.append_nil]
      exact h
  | cons request requests ih =>
      have hnext := ih (h.learn (.answer t request))
      rw [List.append_assoc] at hnext
      exact hnext

lemma mem_created (h : Records t log) :
    label ∈ log.filterMap Entry.created? ↔ label.id < t.size := by
  rw [← List.mem_range, ← h.created, List.mem_map]
  refine ⟨fun hmem => ⟨label, hmem, rfl⟩, ?_⟩
  rintro ⟨other, hmem, hid⟩
  rwa [← Label.eq_of_id_eq hid]

end Records

/-- **One depth and one position for each label.**  Make any requests of a new table, also about
labels that do not exist and for positions that have been given.  The labels that it creates have
the numbers 0, 1, 2 and so on.  No label is placed twice.  For each label there is one depth: that
of all jumps to it that succeed, before or after it is placed, that of the code before it when it
is placed, if control comes from there, and the one that placing it returns.  One more request, if
it fails, leaves the table as it is.  The final check succeeds exactly if every label that was
created has been placed, and otherwise it names the first one that has not. -/
theorem one_depth_per_label (requests : List Request) :
    let log := LabelTable.empty.history requests
    let t := LabelTable.empty.afterAll requests
    let created := log.filterMap Entry.created?
    let placed := log.filterMap Entry.placed?
    created.map Label.id = List.range created.length ∧ placed.Nodup ∧ placed ⊆ created ∧
      (∀ label, ∃ depth, ∀ entry ∈ log, ∀ d ∈ entry.depths label, d = depth) ∧
      (∀ request fault, (t.answer request).1 = .error fault → (t.answer request).2 = t) ∧
      (t.verify = .ok () ↔ ∀ label ∈ created, label ∈ placed) ∧
      ∀ fault, t.verify = .error fault ↔ ∃ label ∈ created, fault = .labelUnplaced label ∧
        label ∉ placed ∧ ∀ other ∈ created, other.id < label.id → other ∈ placed := by
  intro log t created placed
  have h : Records t log := Records.empty.history requests
  have hlength : created.length = t.size := by
    rw [← List.length_map Label.id, h.created, List.length_range]
  refine ⟨hlength ▸ h.created, h.once, fun label hmem => ?_, fun label => ?_,
    fun request fault => answer_eq_error, ?_, fun fault => ?_⟩
  · obtain ⟨depth, hstate⟩ := (h.placed label).mpr hmem
    exact h.mem_created.mpr (Array.getElem?_eq_some_iff.mp hstate).1
  · refine ⟨(t.depth? label).getD 0, fun entry hentry d hd => ?_⟩
    rw [h.depths label entry hentry d hd, Option.getD_some]
  · rw [verify_eq_ok_iff]
    refine forall_congr' fun label => ?_
    rw [h.mem_created, h.placed]
  · rw [verify_eq_error_iff]
    refine exists_congr fun label => ?_
    rw [h.mem_created, h.placed]
    refine ⟨fun ⟨hfault, hlt, hnot, hfirst⟩ => ⟨hlt, hfault, hnot, fun other _ hless => ?_⟩,
      fun ⟨hlt, hfault, hnot, hfirst⟩ => ⟨hfault, hlt, hnot, fun other hless => ?_⟩⟩
    · exact (h.placed other).mp (hfirst other hless)
    · exact (h.placed other).mpr (hfirst other (h.mem_created.mpr (Nat.lt_trans hless hlt)) hless)

/-- Two jumps to the second label, one of them from another depth, which is refused, then its
position and a jump back to it.  The first label gets its position from the code before it, and no
second one; the third label stays open. -/
theorem one_depth_per_label_of_open :
    let requests : List Request := [.create, .create, .reference ⟨1⟩ 2, .reference ⟨1⟩ 3,
      .reference ⟨7⟩ 0, .create, .place ⟨1⟩ none, .reference ⟨1⟩ 2, .place ⟨0⟩ (some 4),
      .place ⟨0⟩ (some 4), .verify]
    let log := LabelTable.empty.history requests
    let t := LabelTable.empty.afterAll requests
    log.map (fun entry => entry.answer.toOption) = [some (.created ⟨0⟩), some (.created ⟨1⟩),
        some .recorded, none, none, some (.created ⟨2⟩), some (.placed 2), some .recorded,
        some (.placed 4), none, none] ∧
      (∃ depth, ∀ entry ∈ log, ∀ d ∈ entry.depths ⟨1⟩, d = depth) ∧
      (t.answer (.place ⟨1⟩ none)).2 = t ∧ t.verify = .error (.labelUnplaced ⟨2⟩) := by
  intro requests log t
  obtain ⟨-, -, -, hdepth, hfails, -, hverify⟩ := one_depth_per_label requests
  refine ⟨by decide +kernel, hdepth ⟨1⟩, ?_, ?_⟩
  · exact hfails _ (.labelPlacedTwice ⟨1⟩) rfl
  · exact (hverify _).mpr ⟨⟨2⟩, by decide +kernel, rfl, by decide +kernel, by decide +kernel⟩

end LabelTable

end StackLowering
