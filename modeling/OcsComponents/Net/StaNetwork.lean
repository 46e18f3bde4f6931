import OcsComponents.Lib.Transition
import OcsComponents.Status.Code

/-!
# The WiFi station

`ocs_net/sta_network.{h,cpp}`: two event bits and a retry counter, set and cleared by the
handlers of the WiFi driver's events. `Station` is the network with what the driver still
owes it: a `WIFI_EVENT_STA_START`, and one answer, an address or a disconnect, for every
successful `esp_wifi_connect()`. A disconnect may also come at any time while connected.
The calls of `INetworkHandler` and of the logger do not matter here.
-/

namespace OcsComponents.Net
open Status Transition

/-- `StaNetwork`: `EVENT_BIT_CONNECTED`, `EVENT_BIT_FAILED` and `retry_count_`. -/
structure StaNetwork where
  maxRetryCount : Nat
  connected : Bool
  failed : Bool
  retryCount : Nat
  deriving DecidableEq, Repr

namespace StaNetwork

def new (maxRetryCount : Nat) : StaNetwork := ⟨maxRetryCount, false, false, 0⟩

/-- `start()` and `stop()`, by whether the call of the driver succeeds. -/
def start (n : StaNetwork) (succeeds : Bool) : StatusCode × StaNetwork := (if succeeds then .ok else .error, n)

def stop (n : StaNetwork) (succeeds : Bool) : StatusCode × StaNetwork := (if succeeds then .ok else .error, n)

/-- `wait()` without a time limit; `none` is a waiter that blocks. -/
def wait (n : StaNetwork) : Option StatusCode :=
  if n.connected then some .ok else if n.failed then some .error else none

/-- `handle_wifi_event_sta_start_`, and whether it calls `esp_wifi_connect()`, whose error is logged. -/
def handleStaStart (n : StaNetwork) : Bool × StaNetwork := (true, n)

/-- `handle_wifi_event_sta_disconnected_`. -/
def handleStaDisconnected (n : StaNetwork) : Bool × StaNetwork :=
  let n := { n with connected := false }
  if n.retryCount < n.maxRetryCount then (true, { n with retryCount := n.retryCount + 1 })
  else (false, { n with failed := true })

/-- `handle_ip_event_sta_got_ip_`. -/
def handleStaGotIp (n : StaNetwork) : StaNetwork := { n with retryCount := 0, connected := true }

end StaNetwork

/-- The network and the driver. -/
structure Station where
  network : StaNetwork
  /-- The `WIFI_EVENT_STA_START` events that are not handled yet. -/
  posted : Nat
  /-- The connection attempts that are not answered yet. -/
  outstanding : Nat
  /-- `WIFI_EVENT_STA_START` was handled, and there was no `stop()` since. -/
  running : Bool
  /-- The retries since then. -/
  retries : Nat
  /-- The retries of earlier sessions that `retry_count_` still counts. -/
  carried : Nat
  deriving DecidableEq, Repr

namespace Station

def new (maxRetryCount : Nat) : Station := ⟨.new maxRetryCount, 0, 0, false, 0, 0⟩

/-- A call or an event, with what the driver does in it. A start that succeeds may post its event. -/
inductive Label where
  | start (succeeds posts : Bool)
  | stop (succeeds : Bool)
  | staStart (connects : Bool)
  | gotIp
  | disconnected (answers connects : Bool)
  deriving DecidableEq, Repr

/-- One call or event, where it can be. -/
def exec (s : Station) : Label → Option Station
  | .start succeeds posts =>
    some { s with
      network := (s.network.start succeeds).2
      posted := s.posted + (succeeds && posts).toNat }
  | .stop succeeds => some { s with network := (s.network.stop succeeds).2, running := false }
  | .staStart connects =>
    if s.posted = 0 then none
    else
      let (calls, network) := s.network.handleStaStart
      some { s with
        network
        posted := s.posted - 1
        outstanding := s.outstanding + (calls && connects).toNat
        running := true
        retries := 0
        carried := network.retryCount }
  | .gotIp =>
    if s.outstanding = 0 then none
    else some { s with network := s.network.handleStaGotIp, outstanding := s.outstanding - 1, carried := 0 }
  | .disconnected answers connects =>
    if answers = true ∧ s.outstanding = 0 ∨ answers = false ∧ s.network.connected = false then none
    else
      let (calls, network) := s.network.handleStaDisconnected
      some { s with
        network
        outstanding := s.outstanding - answers.toNat + (calls && connects).toNat
        retries := s.retries + calls.toNat }

abbrev Step (s : Station) (l : Label) (s' : Station) : Prop := s.exec l = some s'

/-- Exactly one of three. -/
def ExactlyOne (a b c : Prop) : Prop := a ∧ ¬ b ∧ ¬ c ∨ ¬ a ∧ b ∧ ¬ c ∨ ¬ a ∧ ¬ b ∧ c

/-- Connected, failed, or at it: what the network knows between `WIFI_EVENT_STA_START` and `stop()`. -/
structure Knows (s : Station) : Prop where
  one : s.running = true → ExactlyOne (s.network.connected = true) (s.network.failed = true) (0 < s.outstanding)
  /-- A waiter blocks on something, and gets `Error` when nothing is in progress. -/
  blocks : s.running = true → s.network.wait = none → 0 < s.outstanding
  fails : s.running = true → s.network.wait = some .error → s.outstanding = 0
  /-- The failure comes after all the retries of this start. -/
  allowed : s.running = true → s.network.failed = true → s.network.maxRetryCount ≤ s.retries

/-- The steps that the network keeps track of. A `WIFI_EVENT_STA_START` that finds no bit set has an
attempt to wait for; one that finds a bit set begins no attempt, and the bit is not `FAILED` of an
earlier session. An address answers the only attempt. A disconnect is followed by a retry that
begins, unless another attempt is going on; when the retries run out, no attempt is going on, and
none of them was of an earlier session. -/
def Covered (s : Station) : Label → Prop
  | .staStart connects =>
    if s.network.connected = false ∧ s.network.failed = false then connects = true ∨ 0 < s.outstanding
    else connects = false ∧ s.outstanding = 0 ∧
      (s.network.failed = false ∨ s.network.connected = false ∧ s.network.maxRetryCount = 0)
  | .gotIp => s.running = true → s.outstanding = 1
  | .disconnected _ connects => s.running = true →
    if s.network.retryCount < s.network.maxRetryCount then connects = true ∨ 1 < s.outstanding
    else s.outstanding ≤ 1 ∧ s.carried = 0
  | _ => True

instance (s : Station) (l : Label) : Decidable (s.Covered l) := by
  unfold Covered
  cases l <;> infer_instance

/-- A running network, and its count of the retries. -/
structure Tracks (s : Station) : Prop where
  one : ExactlyOne (s.network.connected = true) (s.network.failed = true) (0 < s.outstanding)
  allowed : s.network.failed = true → s.network.maxRetryCount ≤ s.retries
  counted : s.network.retryCount ≤ s.retries + s.carried
  exact : 0 < s.carried → s.network.retryCount = s.retries + s.carried

/-- The invariant. -/
structure Sound (s : Station) : Prop where
  bounded : s.network.retryCount ≤ s.network.maxRetryCount
  tracks : s.running = true → s.Tracks

theorem knows_iff (s : Station) : s.Knows ↔ (s.running = true →
    ExactlyOne (s.network.connected = true) (s.network.failed = true) (0 < s.outstanding) ∧
      (s.network.failed = true → s.network.maxRetryCount ≤ s.retries)) := by
  constructor
  · exact fun knows on => ⟨knows.one on, knows.allowed on⟩
  · intro h
    refine ⟨fun on => (h on).1, fun on blocked => ?_, fun on error => ?_, fun on => (h on).2⟩
    · rcases (h on).1 with ⟨up, -⟩ | ⟨-, down, -⟩ | ⟨-, -, pending⟩
      · simp [StaNetwork.wait, up] at blocked
      · cases up : s.network.connected <;> simp [StaNetwork.wait, up, down] at blocked
      · exact pending
    · rcases (h on).1 with ⟨up, -⟩ | ⟨-, -, none⟩ | ⟨-, up, -⟩
      · simp [StaNetwork.wait, up] at error
      · omega
      · cases on : s.network.connected <;> simp [StaNetwork.wait, on, up] at error

/-- With an attempt going on no bit is set. -/
theorem Tracks.pending {s : Station} (h : s.Tracks) (pending : 0 < s.outstanding) :
    s.network.connected = false ∧ s.network.failed = false := by
  rcases h.one with ⟨-, -, none⟩ | ⟨-, -, none⟩ | ⟨up, down, -⟩
  · omega
  · omega
  · exact ⟨by simpa using up, by simpa using down⟩

/-- While connected nothing else is known. -/
theorem Tracks.up {s : Station} (h : s.Tracks) (up : s.network.connected = true) :
    s.network.failed = false ∧ s.outstanding = 0 := by
  rcases h.one with ⟨-, down, none⟩ | ⟨off, -⟩ | ⟨off, -⟩
  · exact ⟨by simpa using down, by omega⟩
  · exact absurd up off
  · exact absurd up off

theorem staStart_iff {s s' : Station} {connects : Bool} (sound : s.Sound) (step : Step s (.staStart connects) s') :
    (s'.Knows ↔ s.Covered (.staStart connects)) ∧ (s.Covered (.staStart connects) → s'.Sound) := by
  simp only [Step, exec] at step
  split at step
  · cases step
  cases step
  rw [knows_iff]
  have bounded := sound.bounded
  unfold Covered StaNetwork.handleStaStart
  obtain ⟨⟨max, connected, failed, retryCount⟩, posted, outstanding, running, retries, carried⟩ := s
  refine ⟨?_, fun covered => ⟨bounded, fun _ => ⟨?_, ?_, by simp, by simp⟩⟩⟩
  · cases connected <;> cases failed <;> cases connects <;> simp [ExactlyOne]
  · unfold ExactlyOne
    cases connected <;> cases failed <;> cases connects <;> simp at covered ⊢ <;> omega
  · cases connected <;> cases failed <;> simp at covered ⊢
    omega

theorem gotIp_iff {s s' : Station} (sound : s.Sound) (step : Step s .gotIp s') :
    (s'.Knows ↔ s.Covered .gotIp) ∧ (s.Covered .gotIp → s'.Sound) := by
  simp only [Step, exec] at step
  split at step
  · cases step
  rename_i some
  cases step
  rw [knows_iff]
  have alone : s.running = true → (ExactlyOne True (s.network.failed = true) (0 < s.outstanding - 1) ↔ s.outstanding = 1) := by
    intro on
    have down := ((sound.tracks on).pending (by omega)).2
    simp [ExactlyOne, down]
    omega
  have off : s.running = true → s.network.failed = false := fun on => ((sound.tracks on).pending (by omega)).2
  constructor
  · constructor
    · exact fun knows on => (alone on).mp (by simpa [StaNetwork.handleStaGotIp] using (knows on).1)
    · exact fun covered on => ⟨by simpa [StaNetwork.handleStaGotIp] using (alone on).mpr (covered on),
        fun failed => absurd failed (by simp [StaNetwork.handleStaGotIp, off on])⟩
  · intro covered
    refine ⟨Nat.zero_le _, fun on => ⟨?_, fun failed => ?_, Nat.zero_le _, fun more => absurd more (by simp)⟩⟩
    · simpa [StaNetwork.handleStaGotIp] using (alone on).mpr (covered on)
    · exact absurd failed (by simp [StaNetwork.handleStaGotIp, off on])

/-- What a disconnect leaves of the attempts, while `FAILED` is clear. -/
theorem Sound.unanswered {s s' : Station} {answers connects : Bool} (sound : s.Sound)
    (step : Step s (.disconnected answers connects) s') (on : s.running = true) :
    s.network.failed = false ∧ (s.outstanding - answers.toNat = 0 ↔ s.outstanding ≤ 1) := by
  simp only [Step, exec] at step
  split at step
  · cases step
  rename_i expected
  cases answers with
  | true =>
    have pending : 0 < s.outstanding := by
      simp at expected
      omega
    exact ⟨((sound.tracks on).pending pending).2, by simp; omega⟩
  | false =>
    obtain ⟨down, none⟩ := (sound.tracks on).up (by simpa using expected)
    exact ⟨down, by simp [none]⟩

/-- With retries left. -/
theorem disconnected_retries {s s' : Station} {answers connects : Bool} (sound : s.Sound)
    (step : Step s (.disconnected answers connects) s') (left : s.network.retryCount < s.network.maxRetryCount) :
    (s'.Knows ↔ s.Covered (.disconnected answers connects)) ∧
      (s.Covered (.disconnected answers connects) → s'.Sound) := by
  have rest := fun on => sound.unanswered step on
  simp only [Step, exec, StaNetwork.handleStaDisconnected, left, if_true] at step
  split at step
  · cases step
  cases step
  rw [knows_iff]
  have begins : s.running = true → (ExactlyOne (false = true) (s.network.failed = true)
      (0 < s.outstanding - answers.toNat + (true && connects).toNat) ↔ connects = true ∨ 1 < s.outstanding) := by
    intro on
    obtain ⟨down, rest⟩ := rest on
    cases connects <;> simp [ExactlyOne, down]
    omega
  have off : s.running = true → ¬ s.network.failed = true := fun on => by simp [(rest on).1]
  constructor
  · constructor
    · intro knows on
      rw [if_pos left]
      exact (begins on).mp (knows on).1
    · intro covered on
      have retries := covered on
      rw [if_pos left] at retries
      exact ⟨(begins on).mpr retries, fun failed => absurd failed (off on)⟩
  · intro covered
    refine ⟨left, fun on => ?_⟩
    have retries := covered on
    rw [if_pos left] at retries
    have before := sound.tracks on
    refine ⟨(begins on).mpr retries, fun failed => absurd failed (off on), ?_, fun more => ?_⟩
    · have := before.counted
      show s.network.retryCount + 1 ≤ s.retries + 1 + s.carried
      omega
    · have := before.exact more
      show s.network.retryCount + 1 = s.retries + 1 + s.carried
      omega

/-- When the retries have run out. -/
theorem disconnected_fails {s s' : Station} {answers connects : Bool} (sound : s.Sound)
    (step : Step s (.disconnected answers connects) s') (left : ¬ s.network.retryCount < s.network.maxRetryCount) :
    (s'.Knows ↔ s.Covered (.disconnected answers connects)) ∧
      (s.Covered (.disconnected answers connects) → s'.Sound) := by
  have rest := fun on => sound.unanswered step on
  have bounded := sound.bounded
  simp only [Step, exec, StaNetwork.handleStaDisconnected, left, if_false] at step
  split at step
  · cases step
  cases step
  rw [knows_iff]
  have ends : s.running = true → (ExactlyOne (false = true) (true = true)
      (0 < s.outstanding - answers.toNat + (false && connects).toNat) ↔ s.outstanding ≤ 1) := by
    intro on
    have rest := (rest on).2
    simp [ExactlyOne]
    omega
  have used : s.running = true → (s.network.maxRetryCount ≤ s.retries + 0 ↔ s.carried = 0) := by
    intro on
    have counted := (sound.tracks on).counted
    have exact := (sound.tracks on).exact
    omega
  constructor
  · constructor
    · intro knows on
      rw [if_neg left]
      exact ⟨(ends on).mp (knows on).1, (used on).mp ((knows on).2 rfl)⟩
    · intro covered on
      have out := covered on
      rw [if_neg left] at out
      exact ⟨(ends on).mpr out.1, fun _ => (used on).mpr out.2⟩
  · intro covered
    refine ⟨bounded, fun on => ?_⟩
    have out := covered on
    rw [if_neg left] at out
    have before := sound.tracks on
    exact ⟨(ends on).mpr out.1, fun _ => (used on).mpr out.2, before.counted, before.exact⟩

theorem disconnected_iff {s s' : Station} {answers connects : Bool} (sound : s.Sound)
    (step : Step s (.disconnected answers connects) s') :
    (s'.Knows ↔ s.Covered (.disconnected answers connects)) ∧
      (s.Covered (.disconnected answers connects) → s'.Sound) := by
  by_cases left : s.network.retryCount < s.network.maxRetryCount
  · exact disconnected_retries sound step left
  · exact disconnected_fails sound step left

theorem step_iff (s : Station) (l : Label) (s' : Station) (sound : s.Sound) (step : Step s l s') :
    (s'.Knows ↔ s.Covered l) ∧ (s.Covered l → s'.Sound) := by
  cases l with
  | start succeeds posts =>
    cases step
    have kept : Station.Sound { s with network := s.network, posted := s.posted + (succeeds && posts).toNat } :=
      ⟨sound.bounded, fun on => have h := sound.tracks on; ⟨h.one, h.allowed, h.counted, h.exact⟩⟩
    have knows : Station.Knows _ := (knows_iff _).mpr fun on => ⟨(kept.tracks on).one, (kept.tracks on).allowed⟩
    exact ⟨iff_of_true knows trivial, fun _ => kept⟩
  | stop succeeds =>
    cases step
    exact ⟨iff_of_true ((knows_iff _).mpr nofun) trivial, fun _ => ⟨sound.bounded, nofun⟩⟩
  | staStart connects => exact staStart_iff sound step
  | gotIp => exact gotIp_iff sound step
  | disconnected answers connects => exact disconnected_iff sound step

theorem step_functional (s : Station) (l : Label) (s' s'' : Station) (h : Step s l s') (h' : Step s l s'') : s' = s'' :=
  Option.some.inj (h.symm.trans h')

/-- **The station knows where it stands** in every state of a run exactly when every step is covered. -/
theorem station_knows_iff {maxRetryCount : Nat} {tr : List Label} {s : Station}
    (run : Run Step (new maxRetryCount) tr s) :
    (∀ tr' s', tr' <+: tr → Run Step (new maxRetryCount) tr' s' → s'.Knows) ↔
      ∀ tr' l s', tr' ++ [l] <+: tr → Run Step (new maxRetryCount) tr' s' → s'.Covered l := by
  have idle : ¬ (new maxRetryCount).running = true := by simp [new]
  have exact := run.every_step_iff step_functional Sound (fun _ _ s' => s'.Knows) Covered
    ⟨Nat.zero_le _, fun on => absurd on idle⟩ step_iff
  exact (Run.every_state_iff ((knows_iff _).mpr fun on => absurd on idle) tr).trans exact

def execCovered (s : Station) (l : Label) : Option Station := if s.Covered l then s.exec l else none

theorem execCovered_sound {s s' : Station} {l : Label} (h : s.execCovered l = some s') : Step s l s' ∧ s.Covered l := by
  obtain ⟨covered, step⟩ := Option.ite_none_right_eq_some.mp h
  exact ⟨step, covered⟩

/-- One retry, an address, a lost connection, and then the failure, after another retry. -/
def failing : List Label :=
  [.start true true, .staStart true, .disconnected true true, .gotIp, .disconnected false true, .disconnected true false]

theorem station_knows_failing : ∃ s, Run Step (new 1) failing s ∧ s.network.wait = some .error ∧
    ∀ tr' s', tr' <+: failing → Run Step (new 1) tr' s' → s'.Knows := by
  obtain ⟨s, run, fails⟩ := Run.exists_of_exec execCovered execCovered_sound failing (new 1)
    (fun s => s.network.wait = some .error) (by decide)
  have plain := run.mono And.left
  exact ⟨s, plain, fails, (station_knows_iff plain).mpr (run.covered step_functional)⟩

/-- An error of the first `esp_wifi_connect()`: nothing is in progress, and a waiter blocks. -/
theorem connect_error_blocks : ∃ s, Run Step (new 5) [.start true true, .staStart false] s ∧
    s.network.wait = none ∧ s.outstanding = 0 ∧ ¬ s.Knows := by
  obtain ⟨s, run, waits, idle, on⟩ := Run.exists_of_exec exec (fun h => h) [.start true true, .staStart false] (new 5)
    (fun s => s.network.wait = none ∧ s.outstanding = 0 ∧ s.running = true) (by decide)
  refine ⟨s, run, waits, idle, fun knows => ?_⟩
  have := knows.blocks on waits
  omega

end Station

end OcsComponents.Net
