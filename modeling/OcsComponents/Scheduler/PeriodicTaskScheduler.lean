import OcsComponents.Core.RateLimiter
import OcsComponents.Lib.Transition
import OcsComponents.Status.Code

/-!
# The periodic task scheduler

`ocs_scheduler/periodic_task_scheduler.{h,cpp}`: tasks are added once, and each `run()`
asks the rate limiter of every task, in the order of the list, whether to run it. Each
limiter reads the clock on its own, so that the clock moves between the tasks of one
`run()`. What a task returns is logged and changes nothing.
-/

namespace OcsComponents.Scheduler
open Status OcsComponents.Core Transition

/-- `core::Duration::millisecond`. -/
def millisecond : Int := 1000

/-- What `run()` did with a task: the clock reading of its limiter, whether the task was
executed, and the status of the node. -/
structure Visit where
  id : String
  now : Int
  executed : Bool
  code : StatusCode
  deriving DecidableEq, Repr

namespace PeriodicTaskScheduler

/-- `PeriodicTaskScheduler::Node`. -/
structure Node (τ : Type) where
  id : String
  task : τ
  limiter : RateLimiter

/-- `Node::run`, where `outcome` is what the task returns when it is executed. -/
def Node.run {τ : Type} (n : Node τ) (now : Int) (outcome : StatusCode) : Visit × Node τ :=
  let (allowed, limiter) := n.limiter.allow now
  (⟨n.id, now, allowed, if allowed then outcome else .ok⟩, { n with limiter := limiter })

end PeriodicTaskScheduler

open PeriodicTaskScheduler (Node)

structure PeriodicTaskScheduler (τ : Type) where
  maxCount : Nat
  taskMinInterval : Int
  totalTsMin : Int
  totalTsMax : Int
  nodes : List (Node τ)

namespace PeriodicTaskScheduler
variable {τ : Type}

def new (maxCount : Nat) : PeriodicTaskScheduler τ := ⟨maxCount, 2 ^ 63 - 1, 2 ^ 63 - 1, -2 ^ 63, []⟩

/-- `PeriodicTaskScheduler::add`, when its assertions hold. -/
def add (s : PeriodicTaskScheduler τ) (task : τ) (id : String) (interval : Int) :
    StatusCode × PeriodicTaskScheduler τ :=
  if s.nodes.length = s.maxCount then (.error, s)
  else if s.nodes.any (·.id = id) then (.invalidArg, s)
  else
    (.ok, { s with
      taskMinInterval := min s.taskMinInterval interval
      nodes := s.nodes ++ [⟨id, task, .new interval⟩] })

/-- `run_()`: one clock reading and one outcome for each node. -/
def runNodes : List (Node τ) → List (Int × StatusCode) → List Visit × List (Node τ)
  | node :: nodes, (now, outcome) :: readings =>
    let (visit, node) := node.run now outcome
    let (visits, nodes) := runNodes nodes readings
    (visit :: visits, node :: nodes)
  | nodes, _ => ([], nodes)

/-- `run()`, with the readings of the clock before, in and after `run_()`. -/
def run (s : PeriodicTaskScheduler τ) (start : Int) (readings : List (Int × StatusCode)) (finish : Int) :
    List Visit × PeriodicTaskScheduler τ :=
  let (visits, nodes) := runNodes s.nodes readings
  let total := finish - start
  (visits, { s with
    totalTsMin := min s.totalTsMin total
    totalTsMax := max s.totalTsMax total
    nodes := nodes })

end PeriodicTaskScheduler

/-- The scheduler and the last reading of its clock. -/
structure Periodic (τ : Type) where
  scheduler : PeriodicTaskScheduler τ
  clock : Int

namespace Periodic
variable {τ : Type}

def new (maxCount : Nat) : Periodic τ := ⟨.new maxCount, 0⟩

inductive Label (τ : Type) where
  | add (task : τ) (id : String) (interval : Int) (code : StatusCode)
  | run (visits : List Visit)

/-- The visits of a `run()`. -/
@[simp] def Label.visits : Label τ → List Visit
  | .run visits => visits
  | .add .. => []

/-- Any calls of `add` that its assertions allow and of `run`, on a clock that goes forward. -/
inductive Step : Periodic τ → Label τ → Periodic τ → Prop
  | add {s task id interval code scheduler} (legal : millisecond ≤ interval)
      (added : s.scheduler.add task id interval = (code, scheduler)) :
      Step s (.add task id interval code) { s with scheduler := scheduler }
  | run {s start readings finish visits scheduler} (each : readings.length = s.scheduler.nodes.length)
      (forward : (s.clock :: start :: readings.map (·.1) ++ [finish]).Pairwise (· ≤ ·))
      (ran : s.scheduler.run start readings finish = (visits, scheduler)) :
      Step s (.run visits) ⟨scheduler, finish⟩

/-- All visits of the task `id`, in order. -/
def visitsOf (id : String) (tr : List (Label τ)) : List Visit := tr.flatMap fun l => l.visits.filter (·.id = id)

/-- The clock readings of visits. -/
def times (visits : List Visit) : List Int := visits.map (·.now)

/-- What `run()` decided at each reading. -/
def decisions (visits : List Visit) : List (Int × Bool) := visits.map fun v => (v.now, v.executed)

/-- The law of a task that was added with `interval`, for what happened since. -/
structure Honours (id : String) (interval : Int) (tr : List (Label τ)) : Prop where
  /-- Every `run()` reaches the task, once, whatever the other tasks return. -/
  reached : ∀ visits, .run visits ∈ tr → ∃ v, visits.filter (·.id = id) = [v]
  /-- The decisions are those of a limiter that is asked at the same readings and knows nothing else. -/
  alone : decisions (visitsOf id tr) = (RateLimiter.new interval).answers (times (visitsOf id tr))
  honoured : RateLimiter.Honoured interval (decisions (visitsOf id tr))

/-- No two nodes have the same id. -/
def Distinct (nodes : List (Node τ)) : Prop := (nodes.map (·.id)).Nodup

theorem runNodes_ids (nodes : List (Node τ)) (readings : List (Int × StatusCode)) :
    (PeriodicTaskScheduler.runNodes nodes readings).2.map (·.id) = nodes.map (·.id) := by
  induction nodes generalizing readings with
  | nil => unfold PeriodicTaskScheduler.runNodes; rfl
  | cons n nodes ih =>
    cases readings with
    | nil => rfl
    | cons reading readings =>
      show n.id :: _ = n.id :: _
      rw [ih readings]

theorem runNodes_visits (nodes : List (Node τ)) (readings : List (Int × StatusCode))
    (each : readings.length = nodes.length) :
    (PeriodicTaskScheduler.runNodes nodes readings).1.map (·.id) = nodes.map (·.id) := by
  induction nodes generalizing readings with
  | nil => unfold PeriodicTaskScheduler.runNodes; rfl
  | cons n nodes ih =>
    cases readings with
    | nil => cases each
    | cons reading readings =>
      show n.id :: _ = n.id :: _
      rw [ih readings (Nat.succ.inj each)]

/-- **What `run_()` does with one node**: it asks its limiter once, at one reading. -/
theorem runNodes_node {nodes : List (Node τ)} {readings : List (Int × StatusCode)}
    (each : readings.length = nodes.length) (distinct : Distinct nodes) {n : Node τ} (member : n ∈ nodes) :
    ∃ now outcome, now ∈ readings.map (·.1) ∧
      (PeriodicTaskScheduler.runNodes nodes readings).1.filter (·.id = n.id) = [(n.run now outcome).1] ∧
      (n.run now outcome).2 ∈ (PeriodicTaskScheduler.runNodes nodes readings).2 := by
  induction nodes generalizing readings with
  | nil => cases member
  | cons m nodes ih =>
    cases readings with
    | nil => cases each
    | cons reading readings =>
      obtain ⟨now, outcome⟩ := reading
      have visits := runNodes_visits nodes readings (Nat.succ.inj each)
      obtain ⟨fresh, distinct⟩ : m.id ∉ nodes.map (·.id) ∧ Distinct nodes := List.nodup_cons.mp distinct
      show ∃ now' outcome', _ ∧ ((m.run now outcome).1 :: _).filter _ = _ ∧ _ ∈ (m.run now outcome).2 :: _
      rcases List.mem_cons.mp member with rfl | later
      · refine ⟨now, outcome, by simp, ?_, List.mem_cons_self⟩
        have none : (PeriodicTaskScheduler.runNodes nodes readings).1.filter (·.id = n.id) = [] := by
          apply List.filter_eq_nil_iff.mpr
          intro v visited same
          apply fresh
          rw [← visits, List.mem_map]
          exact ⟨v, visited, of_decide_eq_true same⟩
        rw [List.filter_cons_of_pos (by simp [Node.run]), none]
      · obtain ⟨now', outcome', read, once, kept⟩ := ih (Nat.succ.inj each) distinct later
        refine ⟨now', outcome', by simp [read], ?_, List.mem_cons_of_mem _ kept⟩
        have other : m.id ≠ n.id := by
          intro same
          apply fresh
          rw [same]
          exact List.mem_map_of_mem later
        rw [List.filter_cons_of_neg (by simp [Node.run, other]), once]

theorem add_ok {s s' : PeriodicTaskScheduler τ} {task : τ} {id : String} {interval : Int} {code : StatusCode}
    (h : s.add task id interval = (code, s')) :
    s'.nodes = s.nodes ∧ code ≠ .ok ∨
      s'.nodes = s.nodes ++ [⟨id, task, .new interval⟩] ∧ code = .ok ∧ ∀ n ∈ s.nodes, n.id ≠ id := by
  unfold PeriodicTaskScheduler.add at h
  split at h
  · cases h
    exact Or.inl ⟨rfl, by simp⟩
  · split at h
    · cases h
      exact Or.inl ⟨rfl, by simp⟩
    · rename_i fresh
      cases h
      refine Or.inr ⟨rfl, rfl, ?_⟩
      simpa using fresh

theorem Step.distinct {s s' : Periodic τ} {l : Label τ} (step : Step s l s') (h : Distinct s.scheduler.nodes) :
    Distinct s'.scheduler.nodes := by
  cases step with
  | add _ added =>
    rcases add_ok added with ⟨same, _⟩ | ⟨appended, _, fresh⟩
    · rwa [same]
    · rw [appended]
      unfold Distinct at h ⊢
      rw [List.map_append, List.nodup_append]
      refine ⟨h, by simp, ?_⟩
      rintro a old b new
      obtain ⟨n, member, rfl⟩ := List.mem_map.mp old
      rw [List.map_singleton, List.mem_singleton] at new
      rw [new]
      exact fresh n member
  | run _ _ ran =>
    cases ran
    show ((PeriodicTaskScheduler.runNodes _ _).2.map (·.id)).Nodup
    rwa [runNodes_ids]

/-- What a run does with one node. -/
structure Follows (n : Node τ) (tr : List (Label τ)) (since upto : Int) : Prop where
  reached : ∀ visits, .run visits ∈ tr → ∃ v, visits.filter (·.id = n.id) = [v]
  alone : decisions (visitsOf n.id tr) = n.limiter.answers (times (visitsOf n.id tr))
  forward : (times (visitsOf n.id tr)).Pairwise (· ≤ ·)
  within : ∀ t ∈ times (visitsOf n.id tr), since ≤ t ∧ t ≤ upto

/-- The readings of one `run()` lie between the one before and its last. -/
theorem read_between {clock start finish now : Int} {readings : List (Int × StatusCode)}
    (forward : (clock :: start :: readings.map (·.1) ++ [finish]).Pairwise (· ≤ ·))
    (read : now ∈ readings.map (·.1)) : clock ≤ now ∧ now ≤ finish := by
  rw [List.pairwise_append] at forward
  obtain ⟨before, _, after⟩ := forward
  refine ⟨(List.pairwise_cons.mp before).1 now (List.mem_cons_of_mem _ read), after now ?_ finish (by simp)⟩
  exact List.mem_cons_of_mem _ (List.mem_cons_of_mem _ read)

/-- An `add` in front visits no node. -/
theorem Follows.add {n : Node τ} {tr : List (Label τ)} {since upto : Int} (h : Follows n tr since upto) (task : τ)
    (id : String) (interval : Int) (code : StatusCode) : Follows n (.add task id interval code :: tr) since upto := by
  refine ⟨?_, h.alone, h.forward, h.within⟩
  intro visits ran
  exact h.reached visits (by simpa using ran)

/-- A `run()` in front visits the node once. -/
theorem Follows.run {n : Node τ} {tr : List (Label τ)} {visits : List Visit} {now : Int} {outcome : StatusCode}
    {clock finish upto : Int} (once : visits.filter (·.id = n.id) = [(n.run now outcome).1])
    (h : Follows (n.run now outcome).2 tr finish upto) (past : clock ≤ now) (next : now ≤ finish) (later : finish ≤ upto) :
    Follows n (.run visits :: tr) clock upto := by
  obtain ⟨reached, alone, forward, within⟩ := h
  have seen : visitsOf n.id (.run visits :: tr) = (n.run now outcome).1 :: visitsOf n.id tr := by
    unfold visitsOf
    rw [List.flatMap_cons, Label.visits, once]
    rfl
  refine ⟨?_, ?_, ?_, ?_⟩
  · intro visits ran
    rcases List.mem_cons.mp ran with same | before
    · cases same
      exact ⟨_, once⟩
    · exact reached visits before
  · rw [seen]
    show (now, _) :: decisions (visitsOf n.id tr) = RateLimiter.answers n.limiter (now :: times (visitsOf n.id tr))
    rw [show decisions (visitsOf n.id tr) = _ from alone]
    rfl
  · rw [seen]
    show (now :: times (visitsOf n.id tr)).Pairwise _
    refine List.pairwise_cons.mpr ⟨?_, forward⟩
    intro t member
    exact Int.le_trans next (within t member).1
  · rw [seen]
    intro t member
    show clock ≤ t ∧ t ≤ upto
    rcases List.mem_cons.mp member with rfl | member
    · exact ⟨past, Int.le_trans next later⟩
    · exact ⟨Int.le_trans (Int.le_trans past next) (within t member).1, (within t member).2⟩

theorem follows_of_run {s s' : Periodic τ} {tr : List (Label τ)} (h : Run Step s tr s')
    (distinct : Distinct s.scheduler.nodes) {n : Node τ} (member : n ∈ s.scheduler.nodes) :
    s.clock ≤ s'.clock ∧ Follows n tr s.clock s'.clock := by
  induction tr generalizing s n with
  | nil =>
    rcases h.first with ⟨_, rfl⟩ | ⟨l, rest, s₁, none, _⟩
    · exact ⟨Int.le_refl _, by simp, rfl, List.Pairwise.nil, by simp [visitsOf, times]⟩
    · cases none
  | cons l tr ih =>
    obtain ⟨s₁, first, rest⟩ := h.uncons
    have distinct' := first.distinct distinct
    cases first with
    | @add task id interval code scheduler _ added =>
      have member' : n ∈ scheduler.nodes := by
        rcases add_ok added with ⟨same, _⟩ | ⟨appended, _⟩
        · rw [← same] at member
          exact member
        · rw [appended]
          exact List.mem_append_left _ member
      obtain ⟨later, follows⟩ := ih rest distinct' member'
      exact ⟨later, follows.add task id interval code⟩
    | @run start readings finish visits scheduler each clock ran =>
      cases ran
      obtain ⟨now, outcome, read, once, kept⟩ := runNodes_node each distinct member
      obtain ⟨past, next⟩ := read_between clock read
      obtain ⟨later, follows⟩ := ih rest distinct' kept
      exact ⟨Int.le_trans (Int.le_trans past next) later, .run once follows past next later⟩

theorem Step.add_node {s s' : Periodic τ} {task : τ} {id : String} {interval : Int}
    (step : Step s (.add task id interval .ok) s') :
    millisecond ≤ interval ∧ s'.clock = s.clock ∧ ⟨id, task, .new interval⟩ ∈ s'.scheduler.nodes := by
  cases step with
  | add legal added =>
    refine ⟨legal, rfl, ?_⟩
    rcases add_ok added with ⟨_, failed⟩ | ⟨appended, _⟩
    · exact absurd rfl failed
    · show _ ∈ PeriodicTaskScheduler.nodes _
      rw [appended]
      simp

theorem distinct_of_run {maxCount : Nat} {tr : List (Label τ)} {s : Periodic τ} (h : Run Step (new maxCount) tr s) :
    Distinct s.scheduler.nodes ∧ 0 ≤ s.clock := by
  refine h.preserves (fun _ => True) (fun s => Distinct s.scheduler.nodes ∧ 0 ≤ s.clock)
    ⟨List.nodup_nil, Int.le_refl 0⟩ ?_ (by simp)
  rintro s l s' ⟨distinct, low⟩ _ step
  refine ⟨step.distinct distinct, ?_⟩
  cases step with
  | add => exact low
  | run _ forward _ =>
    have later := (List.pairwise_cons.mp forward).1
    exact Int.le_trans low (later _ (by simp))

/-- **The scheduler honours the interval** of an accepted task, for any other tasks and
any statuses, if and only if its limiter does not read the clock at 0 and then again
within the interval. -/
theorem honours_iff {maxCount : Nat} {before after : List (Label τ)} {task : τ} {id : String} {interval : Int}
    {s : Periodic τ} (h : Run Step (new maxCount) (before ++ .add task id interval .ok :: after) s)
    (far : s.clock + interval < 2 ^ 63) :
    Honours id interval after ↔ ¬ RateLimiter.Forgets interval (times (visitsOf id after)) := by
  obtain ⟨s₁, first, rest⟩ := h.split
  obtain ⟨s₂, added, last⟩ := rest.uncons
  obtain ⟨distinct, low⟩ := distinct_of_run first
  obtain ⟨legal, same, member⟩ := added.add_node
  obtain ⟨later, reached, alone, forward, within⟩ := follows_of_run last (added.distinct distinct) member
  have paced : RateLimiter.Honoured interval ((RateLimiter.new interval).answers (times (visitsOf id after))) ↔
      ¬ RateLimiter.Forgets interval (times (visitsOf id after)) := by
    apply RateLimiter.answers_honoured_iff _ _ forward
    · intro t member
      have top := (within t member).2
      omega
    · exact Int.lt_of_lt_of_le (by decide) legal
    · intro t member
      have bottom := (within t member).1
      omega
  rw [← paced]
  constructor
  · intro honours
    rw [← alone]
    exact honours.honoured
  · intro honoured
    exact ⟨reached, alone, by rw [show decisions _ = _ from alone]; exact honoured⟩

/-- A task with the interval of a second fails when the clock reads `now`, and is visited again at `now'`. -/
def twice (now now' : Int) (again : Bool) : List (Label Unit) :=
  [.run [⟨"task", now, true, .error⟩], .run [⟨"task", now', again, .ok⟩]]

theorem twice_run (now now' : Int) (again : Bool) (low : 0 ≤ now) (forward : now ≤ now')
    (decision : ((⟨1000000, now⟩ : RateLimiter).allow now').1 = again) :
    ∃ s : Periodic Unit, Run Step (new 16) ([] ++ .add () "task" 1000000 .ok :: twice now now' again) s ∧
      s.clock = now' := by
  let start : Periodic Unit := ⟨((new 16 : Periodic Unit).scheduler.add () "task" 1000000).2, 0⟩
  have added : Step (new 16) (.add () "task" 1000000 .ok) start := .add (by decide) rfl
  have visited (s : Periodic Unit) (now : Int) (outcome : StatusCode) (one : s.scheduler.nodes.length = 1)
      (later : s.clock ≤ now) : Step s (.run (s.scheduler.run now [(now, outcome)] now).1)
        ⟨(s.scheduler.run now [(now, outcome)] now).2, now⟩ := by
    apply Step.run (by simp [one]) _ rfl
    simp [later]
  have first := visited start now .error rfl low
  have second := visited ⟨(start.scheduler.run now [(now, .error)] now).2, now⟩ now' .ok rfl forward
  have same : ((start.scheduler.run now [(now, .error)] now).2.run now' [(now', .ok)] now').1 =
      [⟨"task", now', again, .ok⟩] := by
    rw [← decision]
    show [(⟨_, _, _, ite _ _ _⟩ : Visit)] = _
    rw [ite_self]
    rfl
  rw [same] at second
  exact ⟨_, ((Run.single second).cons first).cons added, rfl⟩

theorem honours_iff_twice : ∃ s : Periodic Unit,
    Run Step (new 16) ([] ++ .add () "task" 1000000 .ok :: twice 42 43 false) s ∧ s.clock + 1000000 < 2 ^ 63 ∧
      (Honours "task" 1000000 (twice 42 43 false) ↔
        ¬ RateLimiter.Forgets 1000000 (times (visitsOf "task" (twice 42 43 false)))) := by
  obtain ⟨s, run, clock⟩ := twice_run 42 43 false (by decide) (by decide) (by decide)
  have far : s.clock + 1000000 < 2 ^ 63 := by rw [clock]; decide
  exact ⟨s, run, far, honours_iff run far⟩

/-- At the reading 0 the first execution is forgotten: a microsecond later the task is executed again. -/
theorem twice_forgotten : ∃ s : Periodic Unit,
    Run Step (new 16) ([] ++ .add () "task" 1000000 .ok :: twice 0 1 true) s ∧
      ¬ Honours "task" 1000000 (twice 0 1 true) := by
  obtain ⟨s, run, clock⟩ := twice_run 0 1 true (by decide) (by decide) (by decide)
  refine ⟨s, run, ?_⟩
  intro honours
  obtain ⟨_, paced⟩ := honours.honoured 0 true [(1, true)] rfl
  have gap : (0 : Int) + 1000000 ≤ 1 := (List.isChain_cons_cons.mp paced.apart).1
  exact absurd gap (by decide)

end Periodic

end OcsComponents.Scheduler
