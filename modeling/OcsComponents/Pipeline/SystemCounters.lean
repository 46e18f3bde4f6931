import OcsComponents.Diagnostic.Sessions
import OcsComponents.Scheduler.PeriodicTaskScheduler

/-!
# The system counters

`ocs_pipeline/basic/system_counter_pipeline.{h,cpp}` over `ocs_diagnostic/time_counter.{h,cpp}`: two persistent
counters of the seconds since boot, the lifetime in an `AccPersistentCounter` that a task saves every hour, and
the uptime in a `MemPersistentCounter`. At a reboot both are saved, the uptime first. The sessions of a device
are run with their clock, which starts anew at boot, and with the task scheduler and its other tasks.
-/

namespace OcsComponents.Diagnostic

/-- `TimeCounter`, with the time of its last `reset()`. -/
structure TimeCounter where
  id : String
  resolution : Int
  offset : Int

/-- `TimeCounter::get`, a quotient of `int64_t` as a `Value`. -/
def TimeCounter.get (c : TimeCounter) (now : Int) : Value := BitVec.ofInt 64 ((now - c.offset).tdiv c.resolution)

end OcsComponents.Diagnostic

namespace OcsComponents.Pipeline
open Status Transition OcsComponents.Core OcsComponents.Storage OcsComponents.Scheduler OcsComponents.Diagnostic
open OcsComponents.Scheduler.PeriodicTaskScheduler (Node)
open OcsComponents.Scheduler.Periodic (Distinct runNodes_ids runNodes_node)

/-- `core::Duration::second` and `hour`. -/
def second : Int := 1000 * millisecond

def hour : Int := 3600 * second

namespace SystemCounters

def uptimeCounter : TimeCounter := ⟨"c_sys_uptime", second, 0⟩

def lifetimeCounter : TimeCounter := ⟨"c_sys_lifetime", second, 0⟩

/-- The task that saves the lifetime. -/
def lifetimeTask : String := "lifetime_counter_task"

/-- A device that is powered: its clock, the tasks and the counters. -/
structure Session where
  clock : Int
  scheduler : PeriodicTaskScheduler Unit
  uptime : BasicPersistentCounter
  lifetime : BasicPersistentCounter
  /-- The uptime is saved already, and the lifetime comes next. -/
  rebooting : Bool

/-- The device. -/
structure System where
  storage : Storage Value
  session : Option Session

def System.off (st : Storage Value) : System := ⟨st, none⟩

/-- What happens to the device, with the readings of its clock and the faults of its storage. -/
inductive Label where
  | boot (clock : Int) (uptimeRead uptimeErase lifetimeRead : Option StorageFault)
  | add (id : String) (interval : Int)
  | tick (now : Int)
  /-- `run()` of the scheduler. A save reads the clock at `saved`. -/
  | run (visits : List Visit) (saved finish : Int) (fault : Option StorageFault)
  | saveUptime (now : Int) (fault : Option StorageFault)
  | saveLifetime (now : Int) (fault : Option StorageFault)
  | powerCut (now : Int)

/-- The visits of the task that saves the lifetime. -/
def mine (visits : List Visit) : List Visit := visits.filter (·.id = lifetimeTask)

/-- It was executed. -/
def executed (visits : List Visit) : Bool := (mine visits).any (·.executed)

/-- The tasks that are added before the counters. -/
def earlier (maxCount : Nat) (tasks : List (String × Int)) : PeriodicTaskScheduler Unit :=
  tasks.foldl (fun s (id, interval) => (s.add () id interval).2) (.new maxCount)

/-- One step. The device boots only when its task can be added, as its constructor asserts; the clock goes
forward, and does not come near the top of its type. A `run()` that a reboot or a power cut ends is a whole one
to the counters, for what comes after their task does nothing to them. -/
inductive Step : System → Label → System → Prop
  | boot {s clock maxCount tasks scheduler uptime st lifetime uptimeRead uptimeErase lifetimeRead}
      (off : s.session = none) (began : 0 ≤ clock) (legal : ∀ t ∈ tasks, millisecond ≤ t.2)
      (added : (earlier maxCount tasks).add () lifetimeTask hour = (.ok, scheduler))
      (erased : MemPersistentCounter.new s.storage uptimeRead uptimeErase uptimeCounter.id = (uptime, st))
      (read : lifetime = BasicPersistentCounter.new st lifetimeRead lifetimeCounter.id) :
      Step s (.boot clock uptimeRead uptimeErase lifetimeRead) ⟨st, some ⟨clock, scheduler, uptime, lifetime, false⟩⟩
  | add {s x id interval code scheduler} (on : s.session = some x) (busy : x.rebooting = false)
      (legal : millisecond ≤ interval) (added : x.scheduler.add () id interval = (code, scheduler)) :
      Step s (.add id interval) { s with session := some { x with scheduler := scheduler } }
  | tick {s x now} (on : s.session = some x) (forward : x.clock ≤ now) :
      Step s (.tick now) { s with session := some { x with clock := now } }
  | run {s x start readings finish visits scheduler saved fault} (on : s.session = some x) (busy : x.rebooting = false)
      (each : readings.length = x.scheduler.nodes.length)
      (forward : (x.clock :: start :: readings.map (·.1) ++ [finish]).Pairwise (· ≤ ·)) (far : finish + hour < 2 ^ 63)
      (ran : x.scheduler.run start readings finish = (visits, scheduler))
      (late : ∀ v ∈ mine visits, v.now ≤ saved) (early : x.clock ≤ saved ∧ saved ≤ finish) :
      Step s (.run visits saved finish fault)
        ⟨if executed visits then (Kind.acc.run x.lifetime (lifetimeCounter.get saved) s.storage fault).2 else s.storage,
          some { x with clock := finish, scheduler := scheduler }⟩
  | saveUptime {s x now fault} (on : s.session = some x) (busy : x.rebooting = false) (forward : x.clock ≤ now) :
      Step s (.saveUptime now fault) ⟨Kind.mem.handleReboot x.uptime (uptimeCounter.get now) s.storage fault,
        some { x with clock := now, rebooting := true }⟩
  | saveLifetime {s x now fault} (on : s.session = some x) (busy : x.rebooting = true) (forward : x.clock ≤ now) :
      Step s (.saveLifetime now fault)
        ⟨Kind.acc.handleReboot x.lifetime (lifetimeCounter.get now) s.storage fault, none⟩
  | powerCut {s x now} (on : s.session = some x) (forward : x.clock ≤ now) :
      Step s (.powerCut now) { s with session := none }

/-! ## What the clocks showed -/

/-- A past session: how long it lasted by its clock, when the lifetime was last saved and its task last asked,
and when the uptime was saved, if it was. -/
structure Past where
  lasted : Int
  saved : Option Int
  attended : Int
  rebooted : Option Int
  deriving DecidableEq, Repr

/-- The past sessions, oldest first, and the session at hand. -/
structure Times where
  past : List Past
  clock : Int
  saved : Option Int
  attended : Int
  rebooted : Option Int
  deriving DecidableEq, Repr

namespace Times

/-- The session at hand ends. -/
def ended (t : Times) (lasted : Int) (saved : Option Int) : Times :=
  { t with past := t.past ++ [⟨lasted, saved, t.attended, t.rebooted⟩], saved := none, rebooted := none }

/-- An event is entered. -/
def enter (t : Times) : Label → Times
  | .boot clock _ _ _ => { t with clock := clock, saved := none, attended := 0, rebooted := none }
  | .add _ _ => t
  | .tick now => { t with clock := now }
  | .run visits saved finish _ =>
    { t with
      clock := finish
      saved := if executed visits then some saved else t.saved
      attended := ((mine visits).getLast?.map (·.now)).getD t.attended }
  | .saveUptime now _ => { t with clock := now, rebooted := some now }
  | .saveLifetime now _ => t.ended now (some now)
  | .powerCut now => t.ended now t.saved

/-- The times of a history. -/
def of (tr : List Label) : Times := tr.foldl enter ⟨[], 0, none, 0, none⟩

theorem of_snoc (tr : List Label) (l : Label) : of (tr ++ [l]) = (of tr).enter l := by
  rw [of, of, List.foldl_append]
  rfl

/-- How long the past sessions lasted. -/
def lasted (ps : List Past) : Int := (ps.map (·.lasted)).sum

end Times

/-! ## Two counters over one storage -/

/-- A time as the counters have it. -/
def seconds (now : Int) : Value := BitVec.ofInt 64 (now.tdiv second)

theorem uptime_get (now : Int) : uptimeCounter.get now = seconds now := by
  rw [TimeCounter.get, seconds]
  exact congrArg (fun t => BitVec.ofInt 64 (t.tdiv second)) (Int.sub_zero now)

theorem lifetime_get (now : Int) : lifetimeCounter.get now = seconds now := by
  rw [TimeCounter.get, seconds]
  exact congrArg (fun t => BitVec.ofInt 64 (t.tdiv second)) (Int.sub_zero now)

namespace System

/-- The lifetime's counter by itself. -/
def lifetime (s : System) : Device := ⟨s.storage, s.session.map fun x => ⟨x.lifetime, seconds x.clock, false⟩⟩

/-- The uptime's. Its session ends with its save. -/
def uptime (s : System) : Device :=
  ⟨s.storage, s.session.bind fun x => if x.rebooting then none else some ⟨x.uptime, seconds x.clock, false⟩⟩

end System

namespace Times

/-- What the lifetime's ledger has of the times. -/
def lifetimes (t : Times) : Ledger := ⟨t.past.map fun p => p.saved.map seconds, t.saved.map seconds, seconds t.clock⟩

/-- The saves of the uptime: the session at hand is past when it has one. -/
def reboots (t : Times) : List (Option Int) := t.past.map (·.rebooted) ++ t.rebooted.toList.map some

def uptimes (t : Times) : Ledger := ⟨t.reboots.map (Option.map seconds), none, seconds t.clock⟩

end Times

/-- No operation of the storage fails. -/
def Label.FaultFree : Label → Prop
  | .boot _ uptimeRead uptimeErase lifetimeRead => uptimeRead = none ∧ uptimeErase = none ∧ lifetimeRead = none
  | .run _ _ _ fault | .saveUptime _ fault | .saveLifetime _ fault => fault = none
  | _ => True

/-- The counters agree with the ledgers of the times. -/
structure Counts (t : Times) (s : System) : Prop where
  lifetime : Device.Booked .acc lifetimeCounter.id t.lifetimes s.lifetime
  uptime : Device.Booked .mem uptimeCounter.id t.uptimes s.uptime
  rebooting : ∀ x, s.session = some x → t.rebooted.isSome = x.rebooting
  off : s.session = none → t.rebooted = none

theorem other_keys : lifetimeCounter.id ≠ uptimeCounter.id := by decide

section
variable {k : Kind} {id : String} {g : Ledger} {st : Storage Value} {session : Option Diagnostic.Session}
  {object : BasicPersistentCounter} {counter : Value}

/-- What happens to other keys does not matter. -/
theorem booked_frame (h : Device.Booked k id g ⟨st, session⟩) {st' : Storage Value} (same : st' id = st id) :
    Device.Booked k id g ⟨st', session⟩ := by
  refine ⟨fun off => ?_, h.object, fun s v on saved => ?_, fun s on unsaved => ?_⟩
  · show (st' id).getD 0 = _
    rw [same]
    exact h.between off
  · show st' id = _
    rw [same]
    exact h.saved s v on saved
  · show k.Unsaved (st' id) _
    rw [same]
    exact h.unsaved s on unsaved

/-- Between sessions only the past matters. -/
theorem booked_off (h : Device.Booked k id g ⟨st, none⟩) {g' : Ledger} (past : g'.past = g.past) :
    Device.Booked k id g' ⟨st, none⟩ := by
  refine ⟨fun off => ?_, nofun, nofun, nofun⟩
  rw [past]
  exact h.between off

theorem write_other (st : Storage Value) (fault : Option StorageFault) {key key' : String} (v : Value)
    (other : key' ≠ key) :
    (st.write fault key v).2 key' = st key' := by
  cases fault with
  | none => exact Function.update_of_ne other _ _
  | some f => rfl

theorem erase_other (st : Storage Value) (fault : Option StorageFault) {key key' : String} (other : key' ≠ key) :
    (st.erase fault key).2 key' = st key' := by
  unfold Storage.erase
  split
  · rfl
  · split
    · exact Function.update_of_ne other _ _
    · rfl

/-- Time passes. -/
theorem booked_count (h : Device.Booked k id g ⟨st, some ⟨object, counter, false⟩⟩) (counter' : Value) :
    Device.Booked k id { g with counter := counter' } ⟨st, some ⟨object, counter', false⟩⟩ :=
  h.step (l := .count counter') trivial rfl

/-- A save at a reboot. -/
theorem booked_save (h : Device.Booked k id g ⟨st, some ⟨object, counter, false⟩⟩) (counter' : Value) :
    Device.Booked k id ⟨g.past ++ [some counter'], none, counter'⟩ ⟨k.handleReboot object counter' st none, none⟩ :=
  (booked_count h counter').step (l := .handleReboot none) rfl rfl

end

section
variable {t : Times} {s s' : System}

theorem Counts.boot {clock : Int} (h : Counts t s) (step : Step s (.boot clock none none none) s') :
    Counts (t.enter (.boot clock none none none)) s' := by
  cases step with
  | boot off began legal added erased read =>
    have none := h.off off
    obtain ⟨storage, session⟩ := s
    subst off read
    obtain ⟨rfl, rfl⟩ := Prod.mk.inj erased
    have lifetime : Device.Booked .acc lifetimeCounter.id t.lifetimes
        ⟨(MemPersistentCounter.new storage .none .none uptimeCounter.id).2, .none⟩ :=
      booked_frame h.lifetime (erase_other storage .none other_keys)
    have uptime := h.uptime.step (l := .boot (seconds clock) .none .none) ⟨rfl, rfl⟩ rfl
    refine ⟨lifetime.step (l := .boot (seconds clock) .none .none) ⟨rfl, rfl⟩ rfl, ?_, ?_, nofun⟩
    · have same : (t.enter (.boot clock .none .none .none)).uptimes =
        t.uptimes.enter (.boot (seconds clock) .none .none) := by
        simp [Times.enter, Times.uptimes, Times.reboots, Ledger.enter, none]
      rw [same]
      exact uptime
    · exact fun x on => Option.some.inj on ▸ rfl

/-- A session's lifetime. -/
theorem Counts.on {x : Session} (h : Counts t s) (on : s.session = some x) : x.lifetime.id = lifetimeCounter.id ∧
    Device.Booked .acc lifetimeCounter.id t.lifetimes ⟨s.storage, some ⟨x.lifetime, seconds x.clock, false⟩⟩ := by
  have booked := h.lifetime
  rw [System.lifetime, on] at booked
  exact ⟨congrArg (·.id) (booked.object _ rfl).1, booked⟩

/-- Its uptime, while it is not saved. -/
theorem Counts.up {x : Session} (h : Counts t s) (on : s.session = some x) (busy : x.rebooting = false) :
    t.rebooted = none ∧ x.uptime.id = uptimeCounter.id ∧
      Device.Booked .mem uptimeCounter.id t.uptimes ⟨s.storage, some ⟨x.uptime, seconds x.clock, false⟩⟩ := by
  have booked := h.uptime
  simp only [System.uptime, on, Option.bind_some, busy, Bool.false_eq_true, if_false] at booked
  refine ⟨?_, congrArg (·.id) (booked.object _ rfl).1, booked⟩
  rw [← Option.isNone_iff_eq_none, ← Option.not_isSome, h.rebooting x on, busy]
  rfl

/-- And once it is. -/
theorem Counts.down {x : Session} (h : Counts t s) (on : s.session = some x) (busy : x.rebooting = true) :
    (∃ now, t.rebooted = some now) ∧ Device.Booked .mem uptimeCounter.id t.uptimes ⟨s.storage, none⟩ := by
  have booked := h.uptime
  simp only [System.uptime, on, Option.bind_some, busy, if_true] at booked
  refine ⟨?_, booked⟩
  rw [← Option.isSome_iff_exists, h.rebooting x on, busy]

theorem Counts.tick {now : Int} (h : Counts t s) (step : Step s (.tick now) s') : Counts (t.enter (.tick now)) s' := by
  cases step with
  | tick on forward =>
    rename_i x
    refine ⟨booked_count (h.on on).2 (seconds now), ?_, ?_, nofun⟩
    · unfold System.uptime
      cases busy : x.rebooting with
      | true =>
        simp only [Option.bind_some, if_true]
        exact booked_off (h.down on busy).2 rfl
      | false =>
        simp only [Option.bind_some, Bool.false_eq_true, if_false]
        exact booked_count (h.up on busy).2.2 (seconds now)
    · exact fun x' on' => Option.some.inj on' ▸ h.rebooting x on

theorem Counts.add {id : String} {interval : Int} (h : Counts t s) (step : Step s (.add id interval) s') :
    Counts (t.enter (.add id interval)) s' := by
  cases step with
  | add on busy legal added =>
    rename_i x _ _
    have uptime := h.uptime
    rw [System.uptime, on] at uptime
    exact ⟨(h.on on).2, uptime, fun x' on' => Option.some.inj on' ▸ h.rebooting x on, nofun⟩

theorem Counts.run {visits : List Visit} {saved finish : Int} (h : Counts t s)
    (step : Step s (.run visits saved finish none) s') :
    Counts (t.enter (.run visits saved finish none)) s' := by
  cases step with
  | run on busy each forward far ran late early =>
    rename_i x _ _ _
    obtain ⟨key, lifetime⟩ := h.on on
    obtain ⟨-, -, uptime⟩ := h.up on busy
    have other : uptimeCounter.id ≠ x.lifetime.id := by
      rw [key]
      exact other_keys.symm
    refine ⟨?_, ?_, fun x' on' => Option.some.inj on' ▸ h.rebooting x on, nofun⟩
    · rw [lifetime_get]
      show Device.Booked _ _ ⟨_, (if executed visits then some saved else t.saved).map seconds, _⟩
        ⟨_, some ⟨x.lifetime, seconds finish, false⟩⟩
      cases executed visits with
      | true =>
        have kept : Device.Booked .acc lifetimeCounter.id ⟨t.lifetimes.past, some (seconds saved), seconds saved⟩
            ⟨(Kind.acc.run x.lifetime (seconds saved) s.storage none).2, some ⟨x.lifetime, seconds saved, false⟩⟩ :=
          (booked_count lifetime (seconds saved)).step (l := .run none) rfl rfl
        exact booked_count kept (seconds finish)
      | false => exact booked_count lifetime (seconds finish)
    · simp only [System.uptime, Option.bind_some, busy, Bool.false_eq_true, if_false]
      refine booked_count (booked_frame uptime ?_) (seconds finish)
      split
      · exact write_other s.storage none _ other
      · rfl

theorem Counts.saveUptime {now : Int} (h : Counts t s) (step : Step s (.saveUptime now none) s') :
    Counts (t.enter (.saveUptime now none)) s' := by
  cases step with
  | saveUptime on busy forward =>
    rename_i x
    obtain ⟨-, lifetime⟩ := h.on on
    obtain ⟨alive, key, uptime⟩ := h.up on busy
    have other : lifetimeCounter.id ≠ x.uptime.id := by
      rw [key]
      exact other_keys
    refine ⟨?_, ?_, fun x' on' => Option.some.inj on' ▸ rfl, nofun⟩
    · exact booked_count (booked_frame lifetime (write_other s.storage none _ other)) (seconds now)
    · have saved := booked_save uptime (seconds now)
      rw [uptime_get]
      refine booked_off saved ?_
      simp [Times.uptimes, Times.reboots, Times.enter, alive]

theorem Counts.saveLifetime {now : Int} (h : Counts t s) (step : Step s (.saveLifetime now none) s') :
    Counts (t.enter (.saveLifetime now none)) s' := by
  cases step with
  | saveLifetime on busy forward =>
    rename_i x
    obtain ⟨key, lifetime⟩ := h.on on
    obtain ⟨⟨u, saved⟩, uptime⟩ := h.down on busy
    have other : uptimeCounter.id ≠ x.lifetime.id := by
      rw [key]
      exact other_keys.symm
    refine ⟨?_, ?_, nofun, fun _ => rfl⟩
    · rw [lifetime_get]
      refine booked_off (booked_save lifetime (seconds now)) ?_
      simp [Times.lifetimes, Times.enter, Times.ended]
    · refine booked_off (booked_frame uptime (write_other s.storage none _ other)) ?_
      simp [Times.uptimes, Times.reboots, Times.enter, Times.ended, saved]

theorem Counts.powerCut {now : Int} (h : Counts t s) (step : Step s (.powerCut now) s') :
    Counts (t.enter (.powerCut now)) s' := by
  cases step with
  | powerCut on forward =>
    rename_i x
    obtain ⟨-, lifetime⟩ := h.on on
    refine ⟨?_, ?_, nofun, fun _ => rfl⟩
    · refine booked_off (lifetime.step (l := .powerCut) trivial rfl) ?_
      simp [Times.lifetimes, Times.enter, Times.ended, Ledger.enter]
    · cases busy : x.rebooting with
      | true =>
        obtain ⟨⟨u, saved⟩, uptime⟩ := h.down on busy
        refine booked_off uptime ?_
        simp [Times.uptimes, Times.reboots, Times.enter, Times.ended, saved]
      | false =>
        obtain ⟨alive, -, uptime⟩ := h.up on busy
        refine booked_off (uptime.step (l := .powerCut) trivial rfl) ?_
        simp [Times.uptimes, Times.reboots, Times.enter, Times.ended, Ledger.enter, alive]

/-- **One step**, when the storage does not fail. -/
theorem Counts.step {l : Label} (h : Counts t s) (sound : l.FaultFree) (step : Step s l s') :
    Counts (t.enter l) s' := by
  cases l with
  | boot clock uptimeRead uptimeErase lifetimeRead =>
    obtain ⟨rfl, rfl, rfl⟩ := sound
    exact h.boot step
  | add id interval => exact h.add step
  | tick now => exact h.tick step
  | run visits saved finish fault =>
    cases sound
    exact h.run step
  | saveUptime now fault =>
    cases sound
    exact h.saveUptime step
  | saveLifetime now fault =>
    cases sound
    exact h.saveLifetime step
  | powerCut now => exact h.powerCut step

end

/-! ## The hourly save -/

/-- A past session: its last save was within it, and an hour at most before its task was last asked. -/
structure Past.Kept (p : Past) : Prop where
  began : 0 ≤ p.saved.getD 0
  within : p.saved.getD 0 ≤ p.lasted
  hourly : p.attended ≤ p.saved.getD 0 + hour
  rebooted : ∀ now, p.rebooted = some now → 0 ≤ now

/-- The session at hand, with the limiter of its task. -/
structure Paced (t : Times) (x : Session) : Prop where
  clock : t.clock = x.clock
  began : 0 ≤ x.clock
  distinct : Distinct x.scheduler.nodes
  limiter : ∃ n ∈ x.scheduler.nodes, n.id = lifetimeTask ∧ n.limiter.interval = hour ∧
    0 ≤ n.limiter.start ∧ n.limiter.start ≤ t.saved.getD 0
  within : t.saved.getD 0 ≤ x.clock
  hourly : t.attended ≤ t.saved.getD 0 + hour
  rebooted : ∀ now, t.rebooted = some now → 0 ≤ now

/-- The times of a device. -/
structure Timed (t : Times) (s : System) : Prop where
  past : ∀ p ∈ t.past, p.Kept
  session : ∀ x, s.session = some x → Paced t x

section
variable {t : Times} {s s' : System} {x : Session}

theorem Paced.saved (h : Paced t x) : 0 ≤ t.saved.getD 0 := by
  obtain ⟨n, -, -, -, low, high⟩ := h.limiter
  exact Int.le_trans low high

theorem add_distinct {scheduler scheduler' : PeriodicTaskScheduler Unit} {id : String} {interval : Int}
    {code : StatusCode}
    (legal : millisecond ≤ interval) (added : scheduler.add () id interval = (code, scheduler'))
    (h : Distinct scheduler.nodes) : Distinct scheduler'.nodes := by
  have step : Periodic.Step ⟨scheduler, 0⟩ (.add () id interval code) ⟨scheduler', 0⟩ := .add legal added
  exact step.distinct h

theorem earlier_distinct (maxCount : Nat) (tasks : List (String × Int)) (legal : ∀ t ∈ tasks, millisecond ≤ t.2) :
    Distinct (earlier maxCount tasks).nodes := by
  suffices more : ∀ scheduler : PeriodicTaskScheduler Unit, Distinct scheduler.nodes →
      Distinct (tasks.foldl (fun s (id, interval) => (s.add () id interval).2) scheduler).nodes from
    more (.new maxCount) List.nodup_nil
  induction tasks with
  | nil => exact fun _ h => h
  | cons task tasks ih =>
    intro scheduler h
    apply ih fun t member => legal t (List.mem_cons_of_mem _ member)
    exact add_distinct (legal task List.mem_cons_self) rfl h

/-- The session ends at a reading of its clock. -/
theorem Timed.ended (h : Timed t s) (on : s.session = some x) (lasted : Int) (saved : Option Int)
    (began : 0 ≤ saved.getD 0)
    (within : saved.getD 0 ≤ lasted) (hourly : t.attended ≤ saved.getD 0 + hour) {st : Storage Value} :
    Timed (t.ended lasted saved) ⟨st, none⟩ := by
  refine ⟨fun p member => ?_, nofun⟩
  rcases List.mem_append.mp member with old | new
  · exact h.past p old
  · obtain rfl := List.mem_singleton.mp new
    exact ⟨began, within, hourly, (h.session x on).rebooted⟩

/-- A limiter that denies has allowed something less than an interval ago. -/
theorem allow_or_early {r : RateLimiter} {now : Int} (low : 0 ≤ r.start) (forward : r.start ≤ now)
    (positive : 0 < r.interval)
    (far : now + r.interval < 2 ^ 63) :
    r.allow now = (true, { r with start := now }) ∨ r.allow now = (false, r) ∧ now < r.start + r.interval := by
  by_cases first : r.start = 0
  · exact Or.inl (RateLimiter.allow_first now first)
  · have same := Algo.after_forward low forward positive (by omega)
    by_cases passed : r.start + r.interval ≤ now
    · exact Or.inl (RateLimiter.allow_passed (same.trans (decide_eq_true passed)))
    · exact Or.inr ⟨RateLimiter.allow_early first (same.trans (decide_eq_false passed)), Int.not_le.mp passed⟩

/-- The task is asked, and is executed if an hour has passed since its last execution. -/
theorem Paced.run {start saved finish : Int} {readings : List (Int × StatusCode)} {visits : List Visit}
    {scheduler : PeriodicTaskScheduler Unit} (h : Paced t x) (each : readings.length = x.scheduler.nodes.length)
    (forward : (x.clock :: start :: readings.map (·.1) ++ [finish]).Pairwise (· ≤ ·)) (far : finish + hour < 2 ^ 63)
    (ran : x.scheduler.run start readings finish = (visits, scheduler)) (late : ∀ v ∈ mine visits, v.now ≤ saved)
    (early : saved ≤ finish) (fault : Option StorageFault) :
    Paced (t.enter (.run visits saved finish fault)) { x with clock := finish, scheduler := scheduler } := by
  obtain ⟨n, member, id, interval, low, high⟩ := h.limiter
  obtain ⟨now, outcome, read, once, kept⟩ := runNodes_node each h.distinct member
  have ids := runNodes_ids x.scheduler.nodes readings
  obtain ⟨rfl, rfl⟩ := Prod.mk.inj ran
  rw [id] at once
  have asked : mine (PeriodicTaskScheduler.runNodes x.scheduler.nodes readings).1 = [(n.run now outcome).1] := once
  have ordered : x.clock ≤ now ∧ now ≤ finish := by
    rw [List.cons_append, List.cons_append, List.pairwise_cons, List.pairwise_cons, List.pairwise_append] at forward
    exact ⟨forward.1 now (by simp [read]), forward.2.2.2.2 now read finish (by simp)⟩
  have later : x.clock ≤ finish := Int.le_trans ordered.1 ordered.2
  have distinct : Distinct (PeriodicTaskScheduler.runNodes x.scheduler.nodes readings).2 := by
    rw [Distinct, ids]
    exact h.distinct
  have within := h.within
  have positive : 0 < hour := by decide
  rcases allow_or_early low (by omega) (by rw [interval]; exact positive)
    (by rw [interval]; omega : now + n.limiter.interval < 2 ^ 63)
    with allowed | ⟨denied, recent⟩
  · simp only [Node.run, allowed] at asked kept
    have reading : now ≤ saved := late _ (by rw [asked]; exact List.mem_singleton_self _)
    simp only [Times.enter, executed, asked, List.any_cons, Bool.true_or, if_true]
    refine ⟨rfl, Int.le_trans h.began later, distinct, ⟨_, kept, id, interval, Int.le_trans h.began ordered.1, reading⟩,
      early, ?_, h.rebooted⟩
    show now ≤ saved + hour
    omega
  · simp only [Node.run, denied] at asked kept
    simp only [Times.enter, executed, asked, List.any_cons, List.any_nil, Bool.or_false, Bool.false_eq_true, if_false]
    refine ⟨rfl, Int.le_trans h.began later, distinct, ⟨_, kept, id, interval, low, high⟩,
      Int.le_trans within later, ?_, h.rebooted⟩
    show now ≤ t.saved.getD 0 + hour
    omega

/-- The task is there from the start. -/
theorem Paced.boot {clock : Int} {maxCount : Nat} {tasks : List (String × Int)} {scheduler : PeriodicTaskScheduler Unit}
    {uptime lifetime : BasicPersistentCounter} {uptimeRead uptimeErase lifetimeRead : Option StorageFault}
    (began : 0 ≤ clock) (legal : ∀ t ∈ tasks, millisecond ≤ t.2)
    (added : (earlier maxCount tasks).add () lifetimeTask hour = (.ok, scheduler)) :
    Paced (t.enter (.boot clock uptimeRead uptimeErase lifetimeRead)) ⟨clock, scheduler, uptime, lifetime, false⟩ := by
  have distinct := add_distinct (by decide : millisecond ≤ hour) added (earlier_distinct maxCount tasks legal)
  have node : (⟨lifetimeTask, (), .new hour⟩ : Node Unit) ∈ scheduler.nodes := by
    rcases Periodic.add_ok added with ⟨-, failed⟩ | ⟨nodes, -⟩
    · exact absurd rfl failed
    · rw [nodes]
      exact List.mem_append_right _ (List.mem_singleton_self _)
  have hourly : (0 : Int) ≤ 0 + hour := by decide
  exact ⟨rfl, began, distinct, ⟨_, node, rfl, rfl, Int.le_refl 0, Int.le_refl 0⟩, began, hourly, nofun⟩

theorem Paced.add {id : String} {interval : Int} {code : StatusCode} {scheduler : PeriodicTaskScheduler Unit}
    (h : Paced t x)
    (legal : millisecond ≤ interval) (added : x.scheduler.add () id interval = (code, scheduler)) :
    Paced t { x with scheduler := scheduler } := by
  obtain ⟨n, member, limiter⟩ := h.limiter
  have node : n ∈ scheduler.nodes := by
    rcases Periodic.add_ok added with ⟨same, -⟩ | ⟨nodes, -⟩
    · rwa [same]
    · rw [nodes]
      exact List.mem_append_left _ member
  exact { h with distinct := add_distinct legal added h.distinct, limiter := ⟨n, node, limiter⟩ }

/-- **One step**, whatever the storage does. -/
theorem Timed.step {l : Label} (h : Timed t s) (step : Step s l s') : Timed (t.enter l) s' := by
  cases step with
  | boot off began legal added erased read =>
    exact ⟨h.past, fun x' on => Option.some.inj on ▸ Paced.boot began legal added⟩
  | add on busy legal added => exact ⟨h.past, fun x' on' => Option.some.inj on' ▸ (h.session _ on).add legal added⟩
  | tick on forward =>
    have paced := h.session _ on
    refine ⟨h.past, fun x' on' => Option.some.inj on' ▸ ?_⟩
    exact { paced with
      clock := rfl
      began := Int.le_trans paced.began forward
      within := Int.le_trans paced.within forward }
  | run on busy each forward far ran late early =>
    exact ⟨h.past, fun x' on' => Option.some.inj on' ▸ (h.session _ on).run each forward far ran late early.2 _⟩
  | saveUptime on busy forward =>
    have paced := h.session _ on
    have began := Int.le_trans paced.began forward
    refine ⟨h.past, fun x' on' => Option.some.inj on' ▸ ?_⟩
    exact { paced with
      clock := rfl
      began
      within := Int.le_trans paced.within forward
      rebooted := fun now saved => Option.some.inj saved ▸ began }
  | saveLifetime on busy forward =>
    have paced := h.session _ on
    have later := Int.add_le_add_right (Int.le_trans paced.within forward) hour
    exact h.ended on _ (some _) (Int.le_trans paced.began forward) (Int.le_refl _) (Int.le_trans paced.hourly later)
  | powerCut on forward =>
    have paced := h.session _ on
    exact h.ended on _ t.saved paced.saved (Int.le_trans paced.within forward) paced.hourly

end

/-! ## What the counters tell -/

/-- What a session may have lost of its time: less than a second when its end was saved, and otherwise an hour
and the time since its task was last asked, too. -/
def Past.margin (p : Past) : Int := second + if p.saved = some p.lasted then 0 else hour + (p.lasted - p.attended)

def margins (ps : List Past) : Int := (ps.map Past.margin).sum

/-- The sessions since the last one that was cut off before the save of its uptime. -/
def recent (ps : List Past) : List Past := (ps.reverse.takeWhile (·.rebooted.isSome)).reverse

/-- The times at which they saved it. -/
def rebootTimes (ps : List Past) : Int := (ps.map fun p => p.rebooted.getD 0).sum

/-- The full seconds of times. -/
def full (saves : List (Option Int)) : Int := (saves.map fun now => (now.getD 0).tdiv second).sum

theorem full_cons (now : Option Int) (saves : List (Option Int)) :
    full (now :: saves) = (now.getD 0).tdiv second + full saves :=
  List.sum_cons

theorem total_seconds (saves : List (Option Int)) :
    Ledger.total (saves.map (Option.map seconds)) = BitVec.ofInt 64 (full saves) := by
  induction saves using List.reverseRecOn with
  | nil => rfl
  | append_singleton saves now ih =>
    have value : (now.map seconds).getD 0 = BitVec.ofInt 64 ((now.getD 0).tdiv second) := by
      cases now with
      | none => rfl
      | some now => rfl
    rw [List.map_append, List.map_singleton, Ledger.total_snoc, ih, value, ← BitVec.ofInt_add]
    simp [full]

theorem full_bounds {now : Int} (low : 0 ≤ now) :
    now.tdiv second * second ≤ now ∧ now < now.tdiv second * second + second := by
  rw [Int.tdiv_eq_ediv_of_nonneg low]
  simp only [second, millisecond]
  omega

theorem Past.Kept.bounds {p : Past} (h : p.Kept) : (p.saved.getD 0).tdiv second * second ≤ p.lasted ∧
    p.lasted ≤ (p.saved.getD 0).tdiv second * second + p.margin := by
  obtain ⟨low, high⟩ := full_bounds h.began
  have within := h.within
  have hourly := h.hourly
  unfold Past.margin
  split
  · next last =>
    rw [last] at low high ⊢
    exact ⟨low, by rw [Int.add_zero]; exact Int.le_of_lt high⟩
  · constructor
    · exact Int.le_trans low within
    · omega

theorem lasted_bounds {ps : List Past} (kept : ∀ p ∈ ps, p.Kept) : full (ps.map (·.saved)) * second ≤ Times.lasted ps ∧
    Times.lasted ps ≤ full (ps.map (·.saved)) * second + margins ps := by
  induction ps with
  | nil => exact ⟨Int.le_refl 0, Int.le_refl 0⟩
  | cons p ps ih =>
    obtain ⟨low, high⟩ := (kept p List.mem_cons_self).bounds
    obtain ⟨low', high'⟩ := ih fun p member => kept p (List.mem_cons_of_mem _ member)
    rw [List.map_cons, full_cons, Int.add_mul]
    simp only [Times.lasted, margins, List.map_cons, List.sum_cons] at low' high' ⊢
    constructor <;> omega

theorem reboots_bounds {ps : List Past} (kept : ∀ p ∈ ps, p.Kept) :
    full (ps.map (·.rebooted)) * second ≤ rebootTimes ps ∧
    rebootTimes ps ≤ full (ps.map (·.rebooted)) * second + second * ps.length := by
  induction ps with
  | nil => exact ⟨Int.le_refl 0, Int.le_refl 0⟩
  | cons p ps ih =>
    have began : 0 ≤ p.rebooted.getD 0 := by
      cases rebooted : p.rebooted with
      | none => exact Int.le_refl 0
      | some now => exact (kept p List.mem_cons_self).rebooted now rebooted
    obtain ⟨low, high⟩ := full_bounds began
    obtain ⟨low', high'⟩ := ih fun p member => kept p (List.mem_cons_of_mem _ member)
    rw [List.map_cons, full_cons, Int.add_mul, List.length_cons]
    simp only [rebootTimes, List.map_cons, List.sum_cons] at low' high' ⊢
    rw [Nat.cast_succ, Int.mul_add, Int.mul_one]
    constructor <;> omega

/-- Every step of a device. -/
theorem timed_of_run {st : Storage Value} {tr : List Label} {s : System} (h : Run Step (.off st) tr s) :
    Timed (Times.of tr) s := by
  refine h.invariant (fun _ => True) (fun tr s => Timed (Times.of tr) s) ⟨nofun, nofun⟩ ?_ fun _ _ => trivial
  intro tr s l s' timed _ step
  rw [Times.of_snoc]
  exact timed.step step

theorem counts_of_run {st : Storage Value} (noUptime : st uptimeCounter.id = none)
    (noLifetime : st lifetimeCounter.id = none)
    {tr : List Label} {s : System} (h : Run Step (.off st) tr s) (sound : ∀ l ∈ tr, l.FaultFree) :
    Counts (Times.of tr) s := by
  refine h.invariant Label.FaultFree (fun tr s => Counts (Times.of tr) s) ?_ ?_ sound
  · refine ⟨⟨fun _ => ?_, nofun, nofun, nofun⟩, ⟨fun _ => ?_, nofun, nofun, nofun⟩, nofun, fun _ => rfl⟩
    · show (st lifetimeCounter.id).getD 0 = _
      rw [noLifetime]
      rfl
    · show (st uptimeCounter.id).getD 0 = _
      rw [noUptime]
      rfl
  · intro tr s l s' counts sound step
    rw [Times.of_snoc]
    exact counts.step sound step

theorem recent_ledger (ps : List Past) : Ledger.recent ((ps.map (·.rebooted)).map (Option.map seconds)) =
    ((recent ps).map (·.rebooted)).map (Option.map seconds) := by
  have same : (Option.isSome ∘ fun p : Past => p.rebooted.map seconds) = fun p => p.rebooted.isSome := by
    funext p
    exact Option.isSome_map
  rw [Ledger.recent, recent, List.map_map, ← List.map_reverse, List.takeWhile_map, List.map_map, List.map_reverse]
  exact congrArg (fun keep => ((ps.reverse.takeWhile keep).map _).reverse) same

/-- **The counters keep the time**, when the storage does not fail: the lifetime is the time that the device was
powered, in seconds and modulo 2^64, up to the margins of the past sessions, and the uptime is the time since
it was last cut off, less the seconds that were not full. A session that reboots counts for the uptime up to the
moment that this is saved, and for the lifetime up to its end. -/
theorem counters_keep_time {st : Storage Value} (noUptime : st uptimeCounter.id = none)
    (noLifetime : st lifetimeCounter.id = none)
    {tr : List Label} {s : System} {x : Session} (h : Run Step (.off st) tr s) (sound : ∀ l ∈ tr, l.FaultFree)
    (on : s.session = some x) :
    (∃ n : Int, AccPersistentCounter.get x.lifetime (lifetimeCounter.get x.clock) = BitVec.ofInt 64 n ∧
      n * second ≤ Times.lasted (Times.of tr).past + x.clock ∧
        Times.lasted (Times.of tr).past + x.clock < n * second + margins (Times.of tr).past + second) ∧
    (x.rebooting = false →
      ∃ n : Int, MemPersistentCounter.get x.uptime (uptimeCounter.get x.clock) = BitVec.ofInt 64 n ∧
        n * second ≤ rebootTimes (recent (Times.of tr).past) + x.clock ∧
          rebootTimes (recent (Times.of tr).past) + x.clock < n * second +
            second * ((recent (Times.of tr).past).length + 1)) := by
  have timed := timed_of_run h
  have counts := counts_of_run noUptime noLifetime h sound
  obtain ⟨low, high⟩ := full_bounds (timed.session x on).began
  constructor
  · obtain ⟨low', high'⟩ := lasted_bounds timed.past
    refine ⟨full ((Times.of tr).past.map (·.saved)) + x.clock.tdiv second, ?_, ?_, ?_⟩
    · have value := (counts.on on).2.get (k := .acc) rfl
      rw [lifetime_get, BitVec.ofInt_add, ← total_seconds, List.map_map]
      exact value
    · rw [Int.add_mul]
      omega
    · rw [Int.add_mul]
      omega
  · intro busy
    have kept : ∀ p ∈ recent (Times.of tr).past, p.Kept := by
      intro p member
      exact timed.past p (List.mem_reverse.mp ((List.takeWhile_sublist _).subset (List.mem_reverse.mp member)))
    obtain ⟨low', high'⟩ := reboots_bounds kept
    obtain ⟨alive, -, uptime⟩ := counts.up on busy
    refine ⟨full ((recent (Times.of tr).past).map (·.rebooted)) + x.clock.tdiv second, ?_, ?_, ?_⟩
    · have value := uptime.get (k := .mem) rfl
      rw [uptime_get, BitVec.ofInt_add, ← total_seconds, ← recent_ledger]
      simp only [Times.uptimes, Times.reboots, alive, Option.toList_none, List.map_nil, List.append_nil] at value
      exact value
    · rw [Int.add_mul]
      omega
    · rw [Int.add_mul, Int.mul_add, Int.mul_one]
      omega

/-! ## A storage that fails -/

/-- A value that counts no more than a time. -/
def Within (v : Value) (time : Int) : Prop := v.toNat * second ≤ time

/-- How long the device was powered. -/
def elapsed (t : Times) (s : System) : Int := Times.lasted t.past + (s.session.map (·.clock)).getD 0

/-- The counters' records and objects count no more than there was. -/
structure Honest (t : Times) (s : System) : Prop where
  uptime : Within ((s.storage uptimeCounter.id).getD 0) (elapsed t s)
  lifetime : Within ((s.storage lifetimeCounter.id).getD 0) (elapsed t s)
  objects : ∀ x, s.session = some x →
    Within x.uptime.value (Times.lasted t.past) ∧ Within x.lifetime.value (Times.lasted t.past)

theorem within_zero {time : Int} (low : 0 ≤ time) : Within 0 time := by
  show ((0 : Nat) : Int) * second ≤ time
  rw [Int.natCast_zero, Int.zero_mul]
  exact low

theorem Within.mono {v : Value} {time time' : Int} (h : Within v time) (later : time ≤ time') : Within v time' :=
  Int.le_trans h later

theorem Within.add {v : Value} {time now : Int} (h : Within v time) (low : 0 ≤ now) :
    Within (v + seconds now) (time + now) := by
  have counted : ((seconds now).toNat : Int) ≤ now.tdiv second := by
    rw [seconds, BitVec.toNat_ofInt]
    have positive : 0 ≤ now.tdiv second := Int.tdiv_nonneg low (by decide)
    generalize now.tdiv second = quotient at positive
    omega
  have sum : (v + seconds now).toNat ≤ v.toNat + (seconds now).toNat := by
    rw [BitVec.toNat_add]
    exact Nat.mod_le _ _
  have bound := (full_bounds low).1
  unfold Within at *
  generalize now.tdiv second = quotient at counted bound
  unfold second millisecond at *
  omega

section
variable {st : Storage Value} {fault : Option StorageFault} {time : Int}

theorem within_read {key : String} (h : Within ((st key).getD 0) time) (low : 0 ≤ time) :
    Within (BasicPersistentCounter.new st fault key).value time := by
  cases fault with
  | none =>
    rw [BasicPersistentCounter.new, Storage.read_sound]
    exact h
  | some f => exact within_zero low

theorem within_erase {key key' : String} (h : Within ((st key').getD 0) time) (low : 0 ≤ time) :
    Within (((st.erase fault key).2 key').getD 0) time := by
  by_cases same : key' = key
  · subst same
    cases fault with
    | none =>
      rw [Storage.erase_sound]
      exact within_zero low
    | some f => exact h
  · rwa [erase_other st fault same]

theorem within_write {key key' : String} {v : Value} (h : Within ((st key').getD 0) time) (written : Within v time) :
    Within (((st.write fault key v).2 key').getD 0) time := by
  by_cases same : key' = key
  · subst same
    cases fault with
    | none =>
      rw [Storage.write_sound]
      exact written
    | some f => exact h
  · rw [write_other st fault v same]
    exact h

end

section
variable {t : Times} {s s' : System} {x : Session}

theorem lasted_snoc (ps : List Past) (p : Past) : Times.lasted (ps ++ [p]) = Times.lasted ps + p.lasted := by
  simp [Times.lasted]

theorem lasted_nonneg {ps : List Past} (kept : ∀ p ∈ ps, p.Kept) : 0 ≤ Times.lasted ps := by
  induction ps with
  | nil => exact Int.le_refl 0
  | cons p ps ih =>
    have first := kept p List.mem_cons_self
    have rest := ih fun p member => kept p (List.mem_cons_of_mem _ member)
    rw [Times.lasted, List.map_cons, List.sum_cons]
    exact Int.add_nonneg (Int.le_trans first.began first.within) rest

theorem Honest.on (h : Honest t s) (on : s.session = some x) :
    Within ((s.storage uptimeCounter.id).getD 0) (Times.lasted t.past + x.clock) ∧
      Within ((s.storage lifetimeCounter.id).getD 0) (Times.lasted t.past + x.clock) := by
  have uptime := h.uptime
  have lifetime := h.lifetime
  rw [elapsed, on] at uptime lifetime
  exact ⟨uptime, lifetime⟩

theorem Honest.off (h : Honest t s) (off : s.session = none) :
    Within ((s.storage uptimeCounter.id).getD 0) (Times.lasted t.past) ∧
      Within ((s.storage lifetimeCounter.id).getD 0) (Times.lasted t.past) := by
  have uptime := h.uptime
  have lifetime := h.lifetime
  rw [elapsed, off, Option.map_none, Option.getD_none, Int.add_zero] at uptime lifetime
  exact ⟨uptime, lifetime⟩

/-- What is left when a session ends. -/
theorem honest_ended {lasted : Int} {saved : Option Int} {st : Storage Value}
    (uptime : Within ((st uptimeCounter.id).getD 0) (Times.lasted t.past + lasted))
    (lifetime : Within ((st lifetimeCounter.id).getD 0) (Times.lasted t.past + lasted)) :
    Honest (t.ended lasted saved) ⟨st, none⟩ := by
  have total : elapsed (t.ended lasted saved) ⟨st, none⟩ = Times.lasted t.past + lasted := by
    rw [elapsed, Option.map_none, Option.getD_none, Int.add_zero]
    exact lasted_snoc _ _
  exact ⟨total ▸ uptime, total ▸ lifetime, nofun⟩

/-- **One step**, whatever fails in it. -/
theorem Honest.step {l : Label} (h : Honest t s) (timed : Timed t s) (step : Step s l s') : Honest (t.enter l) s' := by
  cases step with
  | boot off began legal added erased read =>
    obtain ⟨rfl, rfl⟩ := Prod.mk.inj erased
    subst read
    have low := lasted_nonneg timed.past
    obtain ⟨uptime, lifetime⟩ := h.off off
    have later := Int.le_add_of_nonneg_right (a := Times.lasted t.past) began
    refine ⟨(within_erase uptime low).mono later, (within_erase lifetime low).mono later, fun x' on => ?_⟩
    obtain rfl := Option.some.inj on
    exact ⟨within_read uptime low, within_read (within_erase lifetime low) low⟩
  | add on busy legal added =>
    obtain ⟨uptime, lifetime⟩ := h.on on
    have objects := h.objects _ on
    exact ⟨uptime, lifetime, fun x' on' => Option.some.inj on' ▸ objects⟩
  | tick on forward =>
    obtain ⟨uptime, lifetime⟩ := h.on on
    have objects := h.objects _ on
    have later := Int.add_le_add_left forward (Times.lasted t.past)
    exact ⟨uptime.mono later, lifetime.mono later, fun x' on' => Option.some.inj on' ▸ objects⟩
  | run on busy each forward far ran late early =>
    obtain ⟨uptime, lifetime⟩ := h.on on
    have objects := h.objects _ on
    have low := Int.le_trans (timed.session _ on).began early.1
    have written := (objects.2.add low).mono (Int.add_le_add_left early.2 (Times.lasted t.past))
    have later := Int.add_le_add_left (Int.le_trans early.1 early.2) (Times.lasted t.past)
    rw [← lifetime_get] at written
    refine ⟨?_, ?_, fun x' on' => Option.some.inj on' ▸ objects⟩
    · dsimp only
      split
      · exact within_write (uptime.mono later) written
      · exact uptime.mono later
    · dsimp only
      split
      · exact within_write (lifetime.mono later) written
      · exact lifetime.mono later
  | saveUptime on busy forward =>
    obtain ⟨uptime, lifetime⟩ := h.on on
    have objects := h.objects _ on
    have written := objects.1.add (Int.le_trans (timed.session _ on).began forward)
    have later := Int.add_le_add_left forward (Times.lasted t.past)
    rw [← uptime_get] at written
    exact ⟨within_write (uptime.mono later) written, within_write (lifetime.mono later) written,
      fun x' on' => Option.some.inj on' ▸ objects⟩
  | saveLifetime on busy forward =>
    obtain ⟨uptime, lifetime⟩ := h.on on
    have written := (h.objects _ on).2.add (Int.le_trans (timed.session _ on).began forward)
    have later := Int.add_le_add_left forward (Times.lasted t.past)
    rw [← lifetime_get] at written
    exact honest_ended (within_write (uptime.mono later) written) (within_write (lifetime.mono later) written)
  | powerCut on forward =>
    obtain ⟨uptime, lifetime⟩ := h.on on
    have later := Int.add_le_add_left forward (Times.lasted t.past)
    exact honest_ended (uptime.mono later) (lifetime.mono later)

/-- **The counters never count time that was not**, whatever the storage does. -/
theorem counters_honest {st : Storage Value} (noUptime : st uptimeCounter.id = none)
    (noLifetime : st lifetimeCounter.id = none)
    {tr : List Label} (h : Run Step (.off st) tr s) (on : s.session = some x) :
    Within (AccPersistentCounter.get x.lifetime (lifetimeCounter.get x.clock))
      (Times.lasted (Times.of tr).past + x.clock) ∧
      Within (MemPersistentCounter.get x.uptime (uptimeCounter.get x.clock))
        (Times.lasted (Times.of tr).past + x.clock) := by
  have timed : Timed (Times.of tr) s ∧ Honest (Times.of tr) s := by
    refine h.invariant (fun _ => True) (fun tr s => Timed (Times.of tr) s ∧ Honest (Times.of tr) s)
      ⟨⟨nofun, nofun⟩, ?_⟩ ?_
      fun _ _ => trivial
    · refine ⟨?_, ?_, nofun⟩
      · show Within ((st uptimeCounter.id).getD 0) 0
        rw [noUptime]
        exact within_zero (Int.le_refl 0)
      · show Within ((st lifetimeCounter.id).getD 0) 0
        rw [noLifetime]
        exact within_zero (Int.le_refl 0)
    · intro tr s l s' both _ step
      rw [Times.of_snoc]
      exact ⟨both.1.step step, both.2.step both.1 step⟩
  obtain ⟨uptime, lifetime⟩ := timed.2.objects x on
  have low := (timed.1.session x on).began
  rw [lifetime_get, uptime_get]
  exact ⟨lifetime.add low, uptime.add low⟩

end

/-- Nine seconds of which seven are saved before the power is cut, a session that reboots after four, and half a
second of the third one. -/
def threeSessions : List Label :=
  [.boot 5 none none none, .run [⟨lifetimeTask, 7000000, true, .ok⟩] 7500000 8000000 none, .powerCut 9000000,
    .boot 0 none none none, .saveUptime 3000000 none, .saveLifetime 4000000 none, .boot 1 none none none, .tick 2500000]

/-- The task of the lifetime alone. -/
def scheduled : PeriodicTaskScheduler Unit := ((earlier 16 []).add () lifetimeTask hour).2

theorem added_scheduled : (earlier 16 []).add () lifetimeTask hour = (.ok, scheduled) := rfl

theorem run_threeSessions : ∃ s x, Run Step (.off fun _ => none) threeSessions s ∧ s.session = some x ∧
    x.clock = 2500000 ∧ x.rebooting = false := by
  have ran : scheduled.run 6000000 [(7000000, .ok)] 8000000 =
      ([⟨lifetimeTask, 7000000, true, .ok⟩], (scheduled.run 6000000 [(7000000, .ok)] 8000000).2) := rfl
  have r₁ : Run Step (.off fun _ => none) [.boot 5 none none none] _ :=
    .single (.boot rfl (by decide) (by decide) added_scheduled rfl rfl)
  have r₂ := r₁.next (l := .run [⟨lifetimeTask, 7000000, true, .ok⟩] 7500000 8000000 none)
    (.run rfl rfl rfl (by decide) (by decide) ran (by decide) (by decide))
  have r₃ := r₂.next (l := .powerCut 9000000) (.powerCut rfl (by decide))
  have r₄ := r₃.next (l := .boot 0 none none none) (.boot rfl (by decide) (by decide) added_scheduled rfl rfl)
  have r₅ := r₄.next (l := .saveUptime 3000000 none) (.saveUptime rfl rfl (by decide))
  have r₆ := r₅.next (l := .saveLifetime 4000000 none) (.saveLifetime rfl rfl (by decide))
  have r₇ := r₆.next (l := .boot 1 none none none) (.boot rfl (by decide) (by decide) added_scheduled rfl rfl)
  have r₈ := r₇.next (l := .tick 2500000) (.tick rfl (by decide))
  exact ⟨_, _, r₈, rfl, rfl, rfl⟩

/-- Fifteen and a half seconds, of which five and a half were after the power was cut. -/
theorem counters_keep_time_threeSessions : ∃ s x, Run Step (.off fun _ => none) threeSessions s ∧ s.session = some x ∧
    (∃ n : Int, AccPersistentCounter.get x.lifetime (lifetimeCounter.get x.clock) = BitVec.ofInt 64 n ∧
      n * second ≤ 15500000) ∧
    ∃ n : Int, MemPersistentCounter.get x.uptime (uptimeCounter.get x.clock) = BitVec.ofInt 64 n ∧
      n * second ≤ 5500000 ∧ 5500000 < n * second + 2 * second := by
  have sound : ∀ l ∈ threeSessions, l.FaultFree := by
    simp [threeSessions, Label.FaultFree]
  obtain ⟨s, x, run, on, clock, busy⟩ := run_threeSessions
  obtain ⟨⟨n, lifetime, most, -⟩, uptime⟩ := counters_keep_time rfl rfl run sound on
  rw [clock] at most uptime
  exact ⟨s, x, run, on, ⟨n, clock ▸ lifetime, most⟩, clock ▸ uptime busy⟩

theorem counters_honest_threeSessions : ∃ s x, Run Step (.off fun _ => none) threeSessions s ∧ s.session = some x ∧
    Within (AccPersistentCounter.get x.lifetime (lifetimeCounter.get x.clock)) 15500000 := by
  obtain ⟨s, x, run, on, clock, -⟩ := run_threeSessions
  have both := counters_honest rfl rfl run on
  rw [clock] at both
  exact ⟨s, x, run, on, clock ▸ both.1⟩

end SystemCounters

end OcsComponents.Pipeline
