import OcsComponents.Scheduler.AsyncTaskScheduler
import Mathlib.Data.List.Induction
import Mathlib.Data.List.Pairwise

/-!
# Every firing is served

The bits of the event group are the nodes that have fired since a wait last returned their bit,
at any point of a run. So the bits a wait returns are those nodes, and the loop of `run()` calls
their tasks in the order they were added in. A firing is still in the event group, or ahead
of the loop, or served.
-/

namespace OcsComponents.Scheduler.AsyncTaskScheduler
open Status Transition Algo

variable {τ : Type}

/-! ## What a trace tells -/

namespace Label

/-- The wait of a `run()` returns. -/
@[simp] def returns : Label τ → Bool
  | .wake _ => true
  | .timeout _ => true
  | _ => false

/-- A wait returns the bit of the node and clears it. -/
@[simp] def consumes (i : Nat) : Label τ → Bool
  | .wake bits => bits.getLsbD i
  | _ => false

@[simp] def executes : Label τ → List Nat
  | .execute i _ _ => [i]
  | _ => []

end Label

/-- The node's timer fired since its bit was last consumed. -/
def Fired (tr : List (Label τ)) (i : Nat) : Prop :=
  ∃ before after, tr = before ++ .fire i :: after ∧ ∀ l ∈ after, l.consumes i = false

/-- The nodes whose tasks were called, in order. -/
def executed (tr : List (Label τ)) : List Nat := tr.flatMap Label.executes

@[simp] theorem executed_append (tr tr' : List (Label τ)) : executed (tr ++ tr') = executed tr ++ executed tr' :=
  List.flatMap_append

@[simp] theorem executed_single (l : Label τ) : executed [l] = l.executes := List.flatMap_singleton ..

theorem executed_cons (l : Label τ) (tr : List (Label τ)) : executed (l :: tr) = l.executes ++ executed tr := rfl

theorem not_fired_nil (i : Nat) : ¬ Fired ([] : List (Label τ)) i := by
  rintro ⟨before, after, none, _⟩
  simp at none

/-- One more label. -/
theorem fired_concat {tr : List (Label τ)} {l : Label τ} {i : Nat} :
    Fired (tr ++ [l]) i ↔ l = .fire i ∨ Fired tr i ∧ l.consumes i = false := by
  constructor
  · rintro ⟨before, after, same, kept⟩
    rcases concat_eq_cut.mp same with ⟨_, _, fires⟩ | ⟨after', rfl, cut⟩
    · exact Or.inl fires
    · refine Or.inr ⟨⟨before, after', cut, fun l' member => kept l' ?_⟩, kept l ?_⟩
      · exact List.mem_append_left _ member
      · simp
  · rintro (rfl | ⟨⟨before, after, rfl, kept⟩, keeps⟩)
    · exact ⟨tr, [], rfl, by simp⟩
    · refine ⟨before, after ++ [l], by simp, fun l' member => ?_⟩
      rcases List.mem_append.mp member with old | last
      · exact kept l' old
      · rw [List.mem_singleton.mp last]
        exact keeps

theorem Fired.mem {tr : List (Label τ)} {i : Nat} (h : Fired tr i) : .fire i ∈ tr := by
  obtain ⟨before, after, rfl, _⟩ := h
  simp

/-! ## The invariant -/

/-- The loop still has to come to the node, and will call its task. -/
def Phase.Owes : Phase → Nat → Prop
  | .dispatching bits next, i => bits.getLsbD i = true ∧ next ≤ i
  | _, _ => False

/-- A loop at node `next` with the bits its wait returned: they are the nodes fired before the return,
and those of them before `next` were called since. -/
def Dispatched (tr : List (Label τ)) (bits : BitVec 32) (next : Nat) : Prop :=
  ∃ before ret disp, tr = before ++ ret :: disp ∧ ret.returns = true ∧ (∀ l ∈ disp, l.returns = false) ∧
    (∀ i, bits.getLsbD i = true ↔ Fired before i) ∧ executed disp = (List.range next).filter (bits.getLsbD ·)

/-- A firing has not been consumed, or was served, or the loop comes to it. -/
def Accounted (tr : List (Label τ)) (phase : Phase) : Prop :=
  ∀ i a b, tr = a ++ .fire i :: b → (∀ l ∈ b, l.consumes i = false) ∨ i ∈ executed b ∨ phase.Owes i

structure Events (tr : List (Label τ)) (s : AsyncTaskScheduler τ) : Prop where
  allocated : s.Allocated
  known : ∀ i, .fire i ∈ tr → i < s.nodes.length
  group : ∀ i, s.eventGroup.getLsbD i = true ↔ Fired tr i
  waits : ∀ bits, s.phase = .waiting bits → bits = s.bitsAll
  dispatched : ∀ bits next, s.phase = .dispatching bits next → Dispatched tr bits next
  accounted : Accounted tr s.phase

theorem Events.new : Events [] (new : AsyncTaskScheduler τ) where
  allocated := .new
  known i fires := by simp at fires
  group i := by simp [AsyncTaskScheduler.new, not_fired_nil]
  waits bits here := by cases here
  dispatched bits next here := by cases here
  accounted i a b same := by simp at same

/-- A firing stays accounted for by a step that lets the loop owe what it consumes, and serves
what the loop no longer owes. -/
theorem Accounted.concat {tr : List (Label τ)} {phase phase' : Phase} {l : Label τ} (h : Accounted tr phase)
    (takes : ∀ i, l.consumes i = true → phase'.Owes i)
    (serves : ∀ i, phase.Owes i → i ∈ l.executes ∨ phase'.Owes i) : Accounted (tr ++ [l]) phase' := by
  intro i a b same
  rcases concat_eq_cut.mp same with ⟨rfl, _, _⟩ | ⟨b', rfl, cut⟩
  · exact Or.inl (by simp)
  · rw [executed_append, executed_single, List.mem_append]
    rcases h i a b' cut with kept | served | owed
    · cases consumed : l.consumes i with
      | true => exact Or.inr (Or.inr (takes i consumed))
      | false =>
        refine Or.inl fun l' member => ?_
        rcases List.mem_append.mp member with old | last
        · exact kept l' old
        · rwa [List.mem_singleton.mp last]
    · exact Or.inr (Or.inl (Or.inl served))
    · rcases serves i owed with now | later
      · exact Or.inr (Or.inl (Or.inr now))
      · exact Or.inr (Or.inr later)

/-- A step of the loop over a node. -/
theorem Dispatched.concat {tr : List (Label τ)} {bits : BitVec 32} {next next' : Nat} {l : Label τ}
    (h : Dispatched tr bits next) (inside : l.returns = false)
    (calls : (List.range next').filter (bits.getLsbD ·) = (List.range next).filter (bits.getLsbD ·) ++ l.executes) :
    Dispatched (tr ++ [l]) bits next' := by
  obtain ⟨before, ret, disp, rfl, returned, within, fired, called⟩ := h
  refine ⟨before, ret, disp ++ [l], by simp, returned, fun l' member => ?_, fired, ?_⟩
  · rcases List.mem_append.mp member with old | last
    · exact within l' old
    · rwa [List.mem_singleton.mp last]
  · rw [executed_append, called, executed_single, calls]

/-- The return of a wait. -/
theorem Events.dispatches {tr : List (Label τ)} {s : AsyncTaskScheduler τ} {ret : Label τ} (h : Events tr s)
    (returns : ret.returns = true) : Dispatched (tr ++ [ret]) s.eventGroup 0 :=
  ⟨tr, ret, [], rfl, returns, by simp, h.group, rfl⟩

/-! ## One lemma for each step -/

section
variable {tr : List (Label τ)} {s : AsyncTaskScheduler τ}

theorem Events.add (h : Events tr s) (task : τ) (id : String) (idle : s.phase = .idle) :
    Events (tr ++ [.add task id]) (s.add task id).2 := by
  have grows : (s.add task id).2.phase = .idle ∧ (s.add task id).2.eventGroup = s.eventGroup ∧
      s.nodes.length ≤ (s.add task id).2.nodes.length := by
    rcases s.add_cases task id with ⟨_, same⟩ | ⟨_, _, added⟩
    · rw [same]; exact ⟨idle, rfl, Nat.le_refl _⟩
    · rw [added]; simp [idle]
  obtain ⟨phase, group, nodes⟩ := grows
  constructor
  · exact h.allocated.add task id
  · intro i fires
    exact Nat.lt_of_lt_of_le (h.known i (by simpa using fires)) nodes
  · intro i
    rw [group, h.group, fired_concat]
    simp
  · intro bits here
    rw [phase] at here; cases here
  · intro bits next here
    rw [phase] at here; cases here
  · refine h.accounted.concat (by simp) fun i owed => ?_
    rw [idle] at owed; cases owed

theorem Events.fire {i : Nat} {node : Node τ} (h : Events tr s) (accepted : s.nodes[i]? = some node) :
    Events (tr ++ [.fire i]) (s.fire node.asyncTask) := by
  have inside : i < s.nodes.length := (List.getElem?_eq_some_iff.mp accepted).1
  have room := h.allocated.room
  have bound : maxCount = 24 := rfl
  constructor
  · exact ⟨h.allocated.room, h.allocated.own, h.allocated.bits, h.allocated.union⟩
  · intro j fires
    rcases List.mem_append.mp fires with old | last
    · exact h.known j old
    · cases List.mem_singleton.mp last
      exact inside
  · intro j
    have small : i < 32 := by omega
    rw [AsyncTaskScheduler.fire, (h.allocated.own i node accepted).2]
    rw [BitVec.getLsbD_or, BitOps.mask_getLsbD, fired_concat, ← h.group]
    simp only [Bool.or_eq_true, Bool.and_eq_true, decide_eq_true_eq, Label.fire.injEq, Label.consumes, and_true]
    constructor
    · rintro (set | ⟨_, rfl⟩)
      · exact Or.inr set
      · exact Or.inl rfl
    · rintro (rfl | set)
      · exact Or.inr ⟨small, rfl⟩
      · exact Or.inl set
  · exact h.waits
  · intro bits next here
    exact (h.dispatched bits next here).concat rfl (by simp)
  · exact h.accounted.concat (by simp) fun j owed => Or.inr owed

/-- The steps of `run()` that leave the event group as it is. -/
theorem Events.goto {l : Label τ} {phase : Phase} (h : Events tr s) (keeps : ∀ i, l.consumes i = false)
    (quiet : ∀ i, l ≠ .fire i) (waits : ∀ bits, phase = .waiting bits → bits = s.bitsAll)
    (dispatched : ∀ bits next, phase = .dispatching bits next → Dispatched (tr ++ [l]) bits next)
    (serves : ∀ i, s.phase.Owes i → i ∈ l.executes ∨ phase.Owes i) : Events (tr ++ [l]) (s.goto phase) := by
  constructor
  · exact ⟨h.allocated.room, h.allocated.own, h.allocated.bits, h.allocated.union⟩
  · intro i fires
    rcases List.mem_append.mp fires with old | last
    · exact h.known i old
    · exact absurd (List.mem_singleton.mp last).symm (quiet i)
  · intro i
    rw [fired_concat, or_iff_right (quiet i), keeps i, and_iff_left rfl]
    exact h.group i
  · exact waits
  · exact dispatched
  · exact h.accounted.concat (fun i takes => absurd (keeps i) (by rw [takes]; decide)) serves

theorem Events.wait (h : Events tr s) (idle : s.phase = .idle) :
    Events (tr ++ [.wait]) (s.goto (.waiting s.bitsAll)) := by
  refine h.goto (by simp) (by simp) ?_ ?_ ?_
  · rintro _ ⟨⟩; rfl
  · rintro _ _ ⟨⟩
  · intro i owed
    rw [idle] at owed; cases owed

theorem Events.timeout {bits : BitVec 32} (h : Events tr s) (here : s.phase = .waiting bits) :
    Events (tr ++ [.timeout s.eventGroup]) s.timeout := by
  refine h.goto (by simp) (by simp) ?_ ?_ ?_
  · rintro _ ⟨⟩
  · rintro _ _ ⟨⟩
    exact h.dispatches rfl
  · intro i owed
    rw [here] at owed; cases owed

/-- All bits are returned, and as all are waited for, all are cleared. -/
theorem Events.wake {bits : BitVec 32} (h : Events tr s) (here : s.phase = .waiting bits) :
    Events (tr ++ [.wake s.eventGroup]) (s.wake bits) := by
  obtain rfl := h.waits bits here
  constructor
  · exact ⟨h.allocated.room, h.allocated.own, h.allocated.bits, h.allocated.union⟩
  · intro i fires
    exact h.known i (by simpa using fires)
  · intro i
    have cleared : (s.wake s.bitsAll).eventGroup.getLsbD i = false := by
      rw [AsyncTaskScheduler.wake, BitVec.getLsbD_and, BitVec.getLsbD_not, h.allocated.bits]
      cases set : s.eventGroup.getLsbD i with
      | false => rfl
      | true => simp [h.known i ((h.group i).mp set).mem]
    rw [cleared, fired_concat, ← h.group]
    simp
  · rintro _ ⟨⟩
  · rintro _ _ ⟨⟩
    exact h.dispatches rfl
  · refine h.accounted.concat (fun i set => ⟨set, Nat.zero_le _⟩) fun i owed => ?_
    rw [here] at owed; cases owed

theorem Events.execute {bits : BitVec 32} {i : Nat} {node : Node τ} (code : StatusCode) (h : Events tr s)
    (here : s.phase = .dispatching bits i) (at_ : s.nodes[i]? = some node) (set : bits &&& node.event ≠ 0#32) :
    Events (tr ++ [.execute i node.task code]) (s.goto (.dispatching bits (i + 1))) := by
  have mine := (h.allocated.event_set at_ bits).mp set
  refine h.goto (by simp) (by simp) ?_ ?_ ?_
  · rintro _ ⟨⟩
  · rintro _ _ ⟨⟩
    exact (h.dispatched bits i here).concat rfl (by simp [List.range_succ, mine])
  · intro j owed
    rw [here] at owed
    rcases Nat.eq_or_lt_of_le owed.2 with rfl | later
    · exact Or.inl (by simp)
    · exact Or.inr ⟨owed.1, later⟩

theorem Events.skip {bits : BitVec 32} {i : Nat} {node : Node τ} (h : Events tr s)
    (here : s.phase = .dispatching bits i) (at_ : s.nodes[i]? = some node) (clear : bits &&& node.event = 0#32) :
    Events (tr ++ [.skip i]) (s.goto (.dispatching bits (i + 1))) := by
  have other : bits.getLsbD i = false := by
    rw [← Bool.not_eq_true, ← h.allocated.event_set at_ bits, clear]
    exact fun absent => absent rfl
  refine h.goto (by simp) (by simp) ?_ ?_ ?_
  · rintro _ ⟨⟩
  · rintro _ _ ⟨⟩
    exact (h.dispatched bits i here).concat rfl (by simp [List.range_succ, other])
  · intro j owed
    rw [here] at owed
    rcases Nat.eq_or_lt_of_le owed.2 with rfl | later
    · exact absurd owed.1 (by rw [other]; decide)
    · exact Or.inr ⟨owed.1, later⟩

theorem Events.finish {bits : BitVec 32} (h : Events tr s) (here : s.phase = .dispatching bits s.nodes.length) :
    Events (tr ++ [.finish]) (s.goto .idle) := by
  refine h.goto (by simp) (by simp) ?_ ?_ ?_
  · rintro _ ⟨⟩
  · rintro _ _ ⟨⟩
  · intro i owed
    rw [here] at owed
    obtain ⟨before, ret, disp, rfl, _, _, fired, _⟩ := h.dispatched bits _ here
    -- a node the bits know has fired, so it is not past the last
    have inside := h.known i (List.mem_append_left _ ((fired i).mp owed.1).mem)
    exact absurd owed.2 (Nat.not_le_of_lt inside)

theorem Events.step {l : Label τ} {s' : AsyncTaskScheduler τ} (h : Events tr s) (step : Step s l s') :
    Events (tr ++ [l]) s' := by
  cases step with
  | add task id idle => exact h.add task id idle
  | fire accepted => exact h.fire accepted
  | wait idle _ => exact h.wait idle
  | wake here _ => exact h.wake here
  | timeout here _ => exact h.timeout here
  | execute code here at_ set => exact h.execute code here at_ set
  | skip here at_ clear => exact h.skip here at_ clear
  | finish here => exact h.finish here

theorem Events.of_run (run : Run Step .new tr s) : Events tr s := by
  apply run.invariant (fun _ => True) Events .new
  · intro tr s l s' h _ step
    exact h.step step
  · intro l _
    trivial

/-! ## The tasks called -/

/-- Nodes stay where they are. -/
theorem Step.nodes_prefix {l : Label τ} {s' : AsyncTaskScheduler τ} (step : Step s l s') : s.nodes <+: s'.nodes := by
  cases step with
  | add task id _ =>
    rcases s.add_cases task id with ⟨_, same⟩ | ⟨_, _, added⟩
    · exact same.symm ▸ List.prefix_refl _
    · exact added.symm ▸ List.prefix_append _ _
  | fire _ => exact List.prefix_refl _
  | wait _ _ => exact List.prefix_refl _
  | wake _ _ => exact List.prefix_refl _
  | timeout _ _ => exact List.prefix_refl _
  | execute _ _ _ _ => exact List.prefix_refl _
  | skip _ _ _ => exact List.prefix_refl _
  | finish _ => exact List.prefix_refl _

/-- A call for a node is a call of the node's task. -/
def Right (tr : List (Label τ)) (s : AsyncTaskScheduler τ) : Prop :=
  ∀ i task code, .execute i task code ∈ tr → ∃ node, s.nodes[i]? = some node ∧ node.task = task

theorem right_of_run (run : Run Step .new tr s) : Right tr s := by
  refine run.invariant (fun _ => True) Right (fun _ _ _ none => by cases none) ?_ fun _ _ => trivial
  intro tr s l s' right _ step i task code calls
  have kept : ∀ node, s.nodes[i]? = some node → s'.nodes[i]? = some node := by
    intro node found
    obtain ⟨rest, grown⟩ := step.nodes_prefix
    rw [← grown, List.getElem?_append_left (List.getElem?_eq_some_iff.mp found).1]
    exact found
  rcases List.mem_append.mp calls with old | last
  · obtain ⟨node, found, same⟩ := right i task code old
    exact ⟨node, kept node found, same⟩
  · cases List.mem_singleton.mp last
    cases step with
    | execute _ _ at_ _ => exact ⟨_, at_, rfl⟩

/-- Masks of two nodes differ. -/
theorem Allocated.distinct (h : s.Allocated) : s.nodes.Pairwise fun a b => a.event ≠ b.event := by
  rw [List.pairwise_iff_getElem]
  intro i j inside inside' before same
  have at_ : s.nodes[i]? = some s.nodes[i] := List.getElem?_eq_getElem inside
  have at' : s.nodes[j]? = some s.nodes[j] := List.getElem?_eq_getElem inside'
  have room := h.room
  have bound : maxCount = 24 := rfl
  -- the mask of the one meets the event of the other
  have mine : (BitOps.mask i).getLsbD i = true := by
    rw [BitOps.mask_getLsbD]
    simp only [Bool.and_eq_true, decide_eq_true_eq, and_true]
    omega
  have meets := (h.event_set at_ (BitOps.mask i)).mpr mine
  rw [same] at meets
  have shared := (h.event_set at' (BitOps.mask i)).mp meets
  rw [BitOps.mask_getLsbD] at shared
  simp only [Bool.and_eq_true, decide_eq_true_eq] at shared
  omega

/-! ## A call of `run()` comes to its end -/

/-- A step of a call of `run()` that has begun, with tasks that return `codes`. -/
def Label.Completes (codes : Nat → StatusCode) : Label τ → Prop
  | .execute i _ code => code = codes i
  | .wake _ | .timeout _ | .skip _ | .finish => True
  | .add _ _ | .fire _ | .wait => False

/-- The loop is not past the last node. -/
def Inside (s : AsyncTaskScheduler τ) : Prop := ∀ bits next, s.phase = .dispatching bits next → next ≤ s.nodes.length

theorem Inside.step {l : Label τ} {s' : AsyncTaskScheduler τ} (h : s.Inside) (step : Step s l s') : s'.Inside := by
  have before : ∀ {i : Nat} {node : Node τ}, s.nodes[i]? = some node → i + 1 ≤ s.nodes.length :=
    fun at_ => (List.getElem?_eq_some_iff.mp at_).1
  cases step with
  | add task id idle =>
    intro bits next here
    rcases s.add_cases task id with ⟨_, same⟩ | ⟨_, _, added⟩
    · rw [same] at here ⊢
      exact h bits next here
    · rw [added] at here
      rw [idle] at here; cases here
  | fire _ => exact h
  | wait _ _ => rintro _ _ ⟨⟩
  | wake _ _ => rintro _ _ ⟨⟩; exact Nat.zero_le _
  | timeout _ _ => rintro _ _ ⟨⟩; exact Nat.zero_le _
  | execute _ _ at_ _ => rintro _ _ ⟨⟩; exact before at_
  | skip _ at_ _ => rintro _ _ ⟨⟩; exact before at_
  | finish _ => rintro _ _ ⟨⟩

theorem inside_of_run (run : Run Step .new tr s) : s.Inside := by
  refine run.preserves (fun _ => True) Inside ?_ (fun _ _ _ inside _ step => inside.step step) fun _ _ => trivial
  rintro _ _ ⟨⟩

/-- From the node it is at the loop goes over the rest. -/
theorem loop_completes (codes : Nat → StatusCode) {bits : BitVec 32} {next : Nat} (inside : next ≤ s.nodes.length)
    (here : s.phase = .dispatching bits next) :
    ∃ tr' s', Run Step s tr' s' ∧ s'.phase = .idle ∧ ∀ l ∈ tr', l.Completes codes := by
  induction left : s.nodes.length - next generalizing s next with
  | zero =>
    obtain rfl : next = s.nodes.length := by omega
    exact ⟨_, _, .single (.finish here), rfl, List.forall_mem_singleton.mpr trivial⟩
  | succ left ih =>
    have before : next < s.nodes.length := by omega
    have at_ : s.nodes[next]? = some s.nodes[next] := List.getElem?_eq_getElem before
    obtain ⟨tr', s', rest, idle, completes⟩ := ih (s := s.goto (.dispatching bits (next + 1)))
      (Nat.succ_le_of_lt before) rfl (by simp only [goto]; omega)
    by_cases set : bits &&& s.nodes[next].event = 0#32
    · exact ⟨_, s', rest.cons (.skip here at_ set), idle, List.forall_mem_cons.mpr ⟨trivial, completes⟩⟩
    · exact ⟨_, s', rest.cons (.execute (codes next) here at_ set), idle, List.forall_mem_cons.mpr ⟨rfl, completes⟩⟩

/-- A call that has begun ends by steps of its own, whatever its tasks return. -/
theorem completes_of_run (run : Run Step .new tr s) (busy : s.phase ≠ .idle) (codes : Nat → StatusCode) :
    ∃ tr' s', Run Step s tr' s' ∧ s'.phase = .idle ∧ ∀ l ∈ tr', l.Completes codes := by
  cases here : s.phase with
  | idle => exact absurd here busy
  | waiting bits =>
    by_cases found : s.eventGroup &&& bits = 0#32
    · obtain ⟨tr', s', rest, idle, completes⟩ := loop_completes (s := s.timeout) codes (Nat.zero_le _) rfl
      exact ⟨_, s', rest.cons (.timeout here found), idle, List.forall_mem_cons.mpr ⟨trivial, completes⟩⟩
    · obtain ⟨tr', s', rest, idle, completes⟩ := loop_completes (s := s.wake bits) codes (Nat.zero_le _) rfl
      exact ⟨_, s', rest.cons (.wake here found), idle, List.forall_mem_cons.mpr ⟨trivial, completes⟩⟩
  | dispatching bits next => exact loop_completes codes (inside_of_run run bits next here) here

/-! ## Whole calls of `run()` -/

/-- The trace ends with a call of `run()` whose wait returned at `ret`, after `before`. -/
def Ends (tr before : List (Label τ)) (ret : Label τ) (disp : List (Label τ)) : Prop :=
  tr = before ++ ret :: (disp ++ [.finish]) ∧ ret.returns = true ∧ ∀ l ∈ disp, l.returns = false

/-- A call of `run()` has called the tasks that had fired at the return of its wait. -/
theorem executed_of_ends {before disp : List (Label τ)} {ret : Label τ} (run : Run Step .new tr s)
    (ends : Ends tr before ret disp) :
    (executed disp).Pairwise (· < ·) ∧ ∀ i, i ∈ executed disp ↔ Fired before i := by
  obtain ⟨rfl, returns, within⟩ := ends
  rw [← List.cons_append, ← List.append_assoc] at run
  obtain ⟨s', before_finish, last⟩ := run.split
  obtain ⟨_, finish, _⟩ := last.uncons
  have events := Events.of_run before_finish
  cases finish with
  | @finish bits here =>
    obtain ⟨before', ret', disp', cut, returns', within', fired, called⟩ := events.dispatched bits _ here
    have last : LastAt (fun l : Label τ => l.returns = true) (before ++ ret :: disp) before ret disp :=
      ⟨rfl, returns, fun l member => by rw [within l member]; decide⟩
    obtain ⟨rfl, rfl, rfl⟩ := last.unique ⟨cut, returns', fun l member => by rw [within' l member]; decide⟩
    rw [called]
    refine ⟨List.pairwise_lt_range.filter _, fun i => ?_⟩
    rw [List.mem_filter, List.mem_range, fired, and_iff_right_iff_imp]
    exact fun old => events.known i (List.mem_append_left _ old.mem)

/-- What the scheduler does in a run: its nodes have bits of their own, a refused `add()` is as if it were not made,
a `run()` calls the tasks that fired since their bits were consumed, each once and in the order of
the nodes, and no firing before the return of a wait is left when the `run()` ends. Each `run()` can come to
its end by its own steps, whatever statuses its tasks return. -/
structure Delivers (tr : List (Label τ)) (s : AsyncTaskScheduler τ) : Prop where
  single : ∀ node ∈ s.nodes, node.asyncTask.event = node.event ∧ ∃ pos < 24, node.event = BitOps.mask pos
  distinct : s.nodes.Pairwise fun a b => a.event ≠ b.event
  union : s.bitsAll = s.nodes.foldl (fun bits node => bits ||| node.event) 0#32
  refused : ∀ task id, (s.add task id).1 ≠ .ok → (s.add task id).2 = s
  right : Right tr s
  called : ∀ before ret disp, Ends tr before ret disp →
    (executed disp).Pairwise (· < ·) ∧ ∀ i, i ∈ executed disp ↔ Fired before i
  served : ∀ before ret disp, Ends tr before ret disp →
    ∀ a i b, before = a ++ .fire i :: b → i ∈ executed (b ++ ret :: disp)
  completes : s.phase ≠ .idle → ∀ codes : Nat → StatusCode,
    ∃ tr' s', Run Step s tr' s' ∧ s'.phase = .idle ∧ ∀ l ∈ tr', l.Completes codes

/-- **Every firing reaches its own task**, and none is lost. -/
theorem delivers_of_run (run : Run Step .new tr s) : Delivers tr s := by
  have events := Events.of_run run
  refine ⟨?_, events.allocated.distinct, events.allocated.union, fun _ _ => add_refused, right_of_run run,
    fun _ _ _ => executed_of_ends run, ?_, completes_of_run run⟩
  · intro node member
    obtain ⟨i, inside, rfl⟩ := List.getElem_of_mem member
    obtain ⟨mine, timer⟩ := events.allocated.own i _ (List.getElem?_eq_getElem inside)
    exact ⟨by rw [timer, mine], i, Nat.lt_of_lt_of_le inside events.allocated.room, mine⟩
  · intro before ret disp ends a i b cut
    have called := (executed_of_ends run ends).2 i
    obtain ⟨rfl, returns, within⟩ := ends
    subst cut
    have idle : s.phase = .idle := by
      rw [← List.cons_append, ← List.append_assoc] at run
      obtain ⟨_, _, last⟩ := run.split
      obtain ⟨_, finish, rest⟩ := last.uncons
      rcases rest.first with ⟨_, rfl⟩ | ⟨_, _, _, none, _⟩
      · cases finish
        rfl
      · cases none
    rcases events.accounted i a (b ++ ret :: (disp ++ [.finish])) (by simp) with kept | served | owed
    · -- never consumed, so it is one of those the last wait returned
      have fired : Fired (a ++ .fire i :: b) i := ⟨a, b, rfl, fun l member => kept l (List.mem_append_left _ member)⟩
      rw [executed_append, executed_cons]
      exact List.mem_append_right _ (List.mem_append_right _ (called.mpr fired))
    · have same : executed (b ++ ret :: (disp ++ [.finish])) = executed (b ++ ret :: disp) := by simp [executed]
      rwa [same] at served
    · rw [idle] at owed; cases owed

/-- The second node fires before the wait returns and is called, the first one after it and is left for the
next call. A second node of the same name was refused. -/
theorem delivers_two : ∃ (tr : List (Label String)) (s : AsyncTaskScheduler String), Run Step .new tr s ∧
    executed tr = [1] ∧ Fired tr 0 ∧ s.nodes.length = 2 ∧ Delivers tr s := by
  have run : Run Step (.new : AsyncTaskScheduler String) _ _ := ((((((((Run.start.next
    (.add "fan" "fan" rfl)).next (.add "led" "led" rfl)).next (.add "fan" "fan" rfl)).next (.wait rfl nofun)).next
    (.fire (i := 1) rfl)).next (.wake rfl (by decide))).next (.fire (i := 0) rfl)).next
    (.skip rfl rfl (by decide))).next (.execute .error rfl rfl (by decide))
  have whole := run.next (.finish rfl)
  have left {tr : List (Label String)} : Fired (tr ++ [.fire 0] ++ [.skip 0] ++ [.execute 1 "led" .error] ++ [.finish]) 0 :=
    ⟨tr, [.skip 0, .execute 1 "led" .error, .finish], by simp, by simp⟩
  exact ⟨_, _, whole, rfl, left, rfl, delivers_of_run whole⟩

end

end OcsComponents.Scheduler.AsyncTaskScheduler
