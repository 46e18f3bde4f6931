import OcsComponents.OneWire.Retrace

/-!
# When the search enumerates the bus

`scanCalls` is the caller's loop: one new code a call. The devices are enumerated
exactly when they form a comb, every conflict having a single device on its
set side.
-/

namespace OcsComponents.OneWire
open Status BitTrie

/-! ## The walks over a comb -/

/-- The scanner after `n` bits of the first call, which follows the leftmost path. -/
structure First (D : Finset RomCode) (m : RomCode) (n : Nat) (sc : RomCodeScanner) (buf : RomCode) : Prop where
  opened : sc.finished = false
  path : Same n m buf
  count : sc.conflictCount = BitVec.ofNat 32 (conflicts D m n)
  curr : (conflicts D m n = 0 ∧ sc.prevDiscrepancy = -1 ∧ sc.currDiscrepancy = -1) ∨
    ∃ c, LastConflict D m n c ∧ sc.currDiscrepancy = c ∧ 0 ≤ sc.prevDiscrepancy

theorem walk_first {D : Finset RomCode} {m : RomCode} (left : Leftmost RomCode.bit RomCode.width D m) :
    ∃ sc buf, walk D .new RomCode.width = .ok (sc, buf) ∧ First D m RomCode.width sc buf := by
  refine walk_total ⟨m, left.member⟩ (First D m) (Nat.le_refl _)
    ⟨.new, .new, rfl, rfl, fun i hi => absurd hi (Nat.not_lt_zero i), rfl, Or.inl ⟨rfl, rfl, rfl⟩⟩ ?_
    RomCode.width (Nat.zero_le _) (Nat.le_refl _)
  intro n _ hn sc buf path inv
  by_cases conflict : Conflict D m n
  · have there : Conflict D buf n := conflict.congr inv.path
    have past : sc.currDiscrepancy < n := by
      rcases inv.curr with ⟨_, _, unset⟩ | ⟨c, last, at', _⟩
      · omega
      · have := last.before; omega
    refine ⟨_, false, by rw [chooseBit_conflict there, handleDiscrepancy_ok]; exact .found past, ?_⟩
    refine ⟨inv.opened, ?_, ?_, Or.inr ⟨n, .here conflict, rfl, ?_⟩⟩
    · exact (same_assign_succ hn).mpr ⟨inv.path, left.clear n hn conflict⟩
    · rw [conflicts_succ, if_pos conflict, inv.count, BitVec.ofNat_add]; rfl
    · rcases inv.curr with ⟨_, unset, _⟩ | ⟨c, _, at', _⟩
      · simp [unset]
      · dsimp only; split <;> omega
  · have there : ¬ Conflict D buf n := fun h => conflict (h.congr inv.path.symm)
    refine ⟨sc, m.bit n, chooseBit_forced left.member inv.path there, inv.opened,
      (same_assign_succ hn).mpr ⟨inv.path, rfl⟩, ?_, ?_⟩
    · rw [conflicts_succ, if_neg conflict, Nat.add_zero, inv.count]
    · rcases inv.curr with ⟨none, unset⟩ | ⟨c, last, rest⟩
      · exact Or.inl ⟨by rw [conflicts_succ, if_neg conflict, none], unset⟩
      · exact Or.inr ⟨c, last.step conflict, rest⟩

/-- Between two calls over a comb: the conflicts of the leftmost path up to `c`
are still to be taken. -/
structure Pending (D : Finset RomCode) (m : RomCode) (sc : RomCodeScanner) (c : Nat) : Prop where
  ready : Ready D sc
  conflict : Conflict D m c
  bound : c < RomCode.width
  curr : sc.currDiscrepancy = c
  prev : 0 ≤ sc.prevDiscrepancy
  count : sc.conflictCount = BitVec.ofNat 32 (conflicts D m c + 1)

theorem ofNat_sub_one (k : Nat) : BitVec.ofNat 32 (k + 1) - 1 = BitVec.ofNat 32 k := by
  rw [BitVec.ofNat_add]
  exact BitVec.add_sub_cancel _ _

theorem ofNat_ne_zero {k : Nat} (h : k < 2 ^ 32) (nonzero : k ≠ 0) : BitVec.ofNat 32 k ≠ 0 := by
  intro zero
  have value := congrArg BitVec.toNat zero
  rw [BitVec.toNat_ofNat, Nat.mod_eq_of_lt h] at value
  exact nonzero value

theorem conflicts_small (D : Finset RomCode) (m : RomCode) {c : Nat} (bound : c ≤ RomCode.width) :
    conflicts D m c + 1 < 2 ^ 32 := by
  have := conflicts_le D m c
  simp only [RomCode.width] at bound
  omega

theorem Pending.retraceable {D : Finset RomCode} {m : RomCode} {sc : RomCodeScanner} {c : Nat}
    (h : Pending D m sc c) (left : Leftmost RomCode.bit RomCode.width D m) : Retraceable D m sc c := by
  refine ⟨h.bound, h.curr, h.conflict, fun i hi => left.clear i (Nat.lt_trans hi h.bound), fun i hi _ none => ?_⟩
  -- the first conflict is common to the whole set
  have below := common_of_no_fork left.member (.refl i m) (conflicts_eq_zero.mp none)
  have common : Common RomCode.bit D i := fun a ha e he => (below a ha).trans (below e he).symm
  have := h.prev
  have := h.ready.prevRoot i common
  omega

/-- The call that takes the conflict `c` of a comb: past `c` nothing is left to choose. -/
theorem walk_pending {D : Finset RomCode} {m : RomCode} (left : Leftmost RomCode.bit RomCode.width D m)
    (comb : Comb RomCode.bit RomCode.width D) {sc₀ : RomCodeScanner} {c : Nat} (pending : Pending D m sc₀ c) :
    ∃ sc code, walk D sc₀ RomCode.width = .ok (sc, code) ∧ Same c m code ∧ code.bit c = true ∧
      Taken D m sc₀ c sc := by
  have counted : sc₀.conflictCount ≠ 0 := by
    rw [pending.count]
    exact ofNat_ne_zero (conflicts_small D m (Nat.le_of_lt pending.bound)) (Nat.succ_ne_zero _)
  obtain ⟨sc₁, buf₁, walked, path₁, set₁, taken⟩ :=
    walk_retraced (pending.retraceable left) pending.ready.ordered counted
  obtain ⟨sc, code, result, rfl, path, set⟩ := walk_total (D := D) ⟨m, left.member⟩
    (fun _ sc buf => sc = sc₁ ∧ Same c m buf ∧ buf.bit c = true) (Nat.le_refl _)
    ⟨sc₁, buf₁, walked, rfl, path₁, set₁⟩
    (by
      rintro n behind hn sc buf path ⟨rfl, taken, set⟩
      have there : ¬ Conflict D buf n :=
        comb.no_fork_after behind pending.bound (pending.conflict.congr taken) set
      obtain ⟨d, hd, agree⟩ := path.device
      refine ⟨sc, d.bit n, chooseBit_forced hd agree there, rfl,
        (same_assign hn (Nat.le_of_lt behind)).mpr taken, ?_⟩
      rw [RomCode.assign_bit buf _ hn pending.bound, if_neg (by omega), set])
    RomCode.width pending.bound (Nat.le_refl _)
  exact ⟨sc, code, result, path, set, taken⟩

theorem conclude_of_counted {sc : RomCodeScanner} (counted : sc.conflictCount ≠ 0) : sc.conclude = sc := by
  rw [RomCodeScanner.conclude, if_neg counted]

/-- Between two calls: nothing is left to take on the leftmost path before bit `n`, and the
search is over, or the last conflict there is pending. -/
inductive Following (D : Finset RomCode) (m : RomCode) (n : Nat) (sc : RomCodeScanner) : Prop where
  | ended (none : conflicts D m n = 0) (finished : sc.finished = true)
  | more (c : Nat) (last : LastConflict D m n c) (pending : Pending D m sc c)

/-- The first call leaves the last conflict of its path pending. -/
theorem First.next {D : Finset RomCode} {m code : RomCode} {sc : RomCodeScanner}
    (left : Leftmost RomCode.bit RomCode.width D m) (result : walk D .new RomCode.width = .ok (sc, code))
    (first : First D m RomCode.width sc code) : Following D m RomCode.width sc.conclude := by
  rcases first.curr with ⟨none, _, _⟩ | ⟨c, last, curr, prev⟩
  · exact .ended none (by simp [RomCodeScanner.conclude, first.count, none])
  · have counted : sc.conflictCount ≠ 0 := by
      rw [first.count, last.conflicts_eq]
      exact ofNat_ne_zero (conflicts_small D m (Nat.le_of_lt last.before)) (Nat.succ_ne_zero _)
    obtain ⟨_, next⟩ := walk_turns_once ⟨m, left.member⟩ (.new D) result
    rw [conclude_of_counted counted]
    exact .more c last ⟨next.resolve_right counted, last.conflict, last.before, curr, prev,
      by rw [first.count, last.conflicts_eq]⟩

/-- A call that takes the pending conflict leaves the one before it pending. -/
theorem Pending.next {D : Finset RomCode} {m code : RomCode} {sc₀ sc : RomCodeScanner} {c : Nat}
    (left : Leftmost RomCode.bit RomCode.width D m) (pending : Pending D m sc₀ c)
    (result : walk D sc₀ RomCode.width = .ok (sc, code)) (taken : Taken D m sc₀ c sc) :
    Following D m c sc.conclude := by
  have count : sc.conflictCount = BitVec.ofNat 32 (conflicts D m c) := by
    rw [taken.count, pending.count, ofNat_sub_one]
    split
    · subst c; rfl
    · rfl
  by_cases final : conflicts D m c = 0
  · exact .ended final (by simp [RomCodeScanner.conclude, count, final])
  · have small : conflicts D m c < 2 ^ 32 := by have := conflicts_small D m (Nat.le_of_lt pending.bound); omega
    have counted : sc.conflictCount ≠ 0 := by rw [count]; exact ofNat_ne_zero small final
    obtain ⟨p, last, curr, prev⟩ := taken.next.resolve_left final
    obtain ⟨_, next⟩ := walk_turns_once ⟨m, left.member⟩ pending.ready result
    rw [conclude_of_counted counted]
    exact .more p last ⟨next.resolve_right counted, last.conflict, Nat.lt_trans last.before pending.bound, curr,
      by omega, by rw [count, last.conflicts_eq]⟩

/-! ## The calls -/

/-- `k` calls of `scan`, each with a newly constructed code; a fault ends the program. -/
def scanCalls {β : Type} (B : Bus β) : Nat → RomCodeScanner → β → List (Outcome × RomCode)
  | 0, _, _ => []
  | k + 1, sc, bus =>
    match Scan.scan B ⟨sc, .new, bus⟩ with
    | (.ret code, s) => (.ret code, s.buf) :: scanCalls B k s.scanner s.bus
    | (.fault f, s) => [(.fault f, s.buf)]

/-- The bus that holds the devices `D` all the time. -/
abbrev fixedBus (D : Finset RomCode) : Bus Wire := wiredAnd (fun _ => D)

/-- The calls with a fresh scanner that return `OK` yield the elements of `D`,
each once, and the next call returns `NoData`. -/
def Enumerates (D : Finset RomCode) : Prop :=
  ∃ codes : List RomCode, codes.Nodup ∧ (∀ d, d ∈ codes ↔ d ∈ D) ∧
    scanCalls (fixedBus D) (codes.length + 1) .new .idle =
      codes.map (fun code => (.ret .ok, code)) ++ [(.ret .noData, .new)]

theorem scanCalls_finished {β : Type} (B : Bus β) {sc : RomCodeScanner} (finished : sc.finished = true) (bus : β) :
    scanCalls B 1 sc bus = [(.ret .noData, .new)] := by
  simp [scanCalls, Scan.scan, finished]

/-- A call whose walk gets to a valid code returns it, and the calls go on. -/
theorem scanCalls_walk {D : Finset RomCode} (nonempty : D.Nonempty) {sc sc' : RomCodeScanner} {code : RomCode}
    (opened : sc.finished = false) (h : walk D sc RomCode.width = .ok (sc', code)) (valid : code.valid = true)
    (w : Wire) :
    ∃ w', ∀ k, scanCalls (fixedBus D) (k + 1) sc w = (.ret .ok, code) :: scanCalls (fixedBus D) k sc'.conclude w' := by
  have call := scan_walk (fun _ => D) w nonempty opened
  rw [h] at call
  obtain ⟨w', _, call⟩ := call
  rw [if_pos valid] at call
  exact ⟨w', fun k => by simp only [scanCalls, call]⟩

theorem walk_device {D : Finset RomCode} (nonempty : D.Nonempty) {sc sc' : RomCodeScanner} {code : RomCode}
    (h : walk D sc RomCode.width = .ok (sc', code)) : code ∈ D := by
  obtain ⟨d, hd, same⟩ := (walk_onPath nonempty _ (Nat.le_refl _) h).device
  rwa [RomCode.ext_bits same] at hd

/-! ## Not a comb: a device out of reach -/

theorem Ready.conclude {D : Finset RomCode} {sc : RomCodeScanner} (h : Ready D sc ∨ sc.conflictCount = 0) :
    sc.conclude.finished = true ∨ Ready D sc.conclude := by
  unfold RomCodeScanner.conclude
  split
  · exact Or.inl rfl
  · exact Or.inr (h.resolve_right ‹_›)

theorem scanCalls_over {β : Type} (B : Bus β) {sc : RomCodeScanner} (finished : sc.finished = true)
    (code : RomCode) : ∀ k bus, (.ret .ok, code) ∉ scanCalls B k sc bus := by
  intro k
  induction k with
  | zero => intro bus called; cases called
  | succ k ih =>
    intro bus called
    simp only [scanCalls, Scan.scan, finished, if_true, List.mem_cons, Prod.mk.injEq, Outcome.ret.injEq,
      reduceCtorEq, false_and, false_or] at called
    exact ih bus called

/-- No call returns a code with two turns. -/
theorem scanCalls_turns_once {D : Finset RomCode} (nonempty : D.Nonempty) (valid : ∀ d ∈ D, d.valid = true) :
    ∀ k sc w, (sc.finished = true ∨ Ready D sc) → ∀ code, (.ret .ok, code) ∈ scanCalls (fixedBus D) k sc w →
      ∀ i j, Turn D code RomCode.width i → Turn D code RomCode.width j → i = j := by
  intro k
  induction k with
  | zero => intro sc w _ code called; cases called
  | succ k ih =>
    intro sc w state code called
    rcases state with finished | ready
    · exact absurd called (scanCalls_over _ finished code (k + 1) w)
    · cases result : walk D sc RomCode.width with
      | error f =>
        have call := scan_walk (fun _ => D) w nonempty ready.opened
        rw [result] at call
        obtain ⟨s, call⟩ := call
        simp [scanCalls, call] at called
      | ok r =>
        obtain ⟨sc', code'⟩ := r
        obtain ⟨once, next⟩ := walk_turns_once nonempty ready result
        obtain ⟨w', calls⟩ := scanCalls_walk nonempty ready.opened result (valid _ (walk_device nonempty result)) w
        rw [calls, List.mem_cons] at called
        rcases called with first | later
        · cases first; exact once
        · exact ih sc'.conclude w' (Ready.conclude next) code later

theorem comb_of_enumerates {D : Finset RomCode} (nonempty : D.Nonempty) (valid : ∀ d ∈ D, d.valid = true)
    (h : Enumerates D) : Comb RomCode.bit RomCode.width D := by
  by_contra notComb
  obtain ⟨d, hd, n, k, lt, bound, ⟨forkN, setN⟩, forkK, setK⟩ :=
    exists_two_of_not_comb (fun a _ b _ same => RomCode.ext_bits same) notComb
  obtain ⟨codes, _, all, calls⟩ := h
  have called : (.ret .ok, d) ∈ scanCalls (fixedBus D) (codes.length + 1) .new .idle := by
    rw [calls]
    exact List.mem_append_left _ (List.mem_map.mpr ⟨d, (all d).mpr hd, rfl⟩)
  have same := scanCalls_turns_once nonempty valid _ _ _ (Or.inr (.new D)) d called n k
    ⟨by omega, forkN, setN⟩ ⟨bound, forkK, setK⟩
  omega

/-! ## A comb: every device in turn -/

/-- A device leaves the leftmost path at a conflict up to `c`. -/
def LeavesBy (D : Finset RomCode) (m : RomCode) (c : Nat) (d : RomCode) : Prop :=
  ∃ f, f ≤ c ∧ Conflict D m f ∧ Same f d m ∧ d.bit f = true

theorem LeavesBy.here {D : Finset RomCode} {m d : RomCode} {c : Nat} (conflict : Conflict D m c) (same : Same c d m)
    (set : d.bit c = true) : LeavesBy D m c d :=
  ⟨c, Nat.le_refl c, conflict, same, set⟩

theorem LeavesBy.mono {D : Finset RomCode} {m d : RomCode} {p c : Nat} (leaves : LeavesBy D m p d) (le : p ≤ c) :
    LeavesBy D m c d := by
  obtain ⟨f, before, rest⟩ := leaves
  exact ⟨f, Nat.le_trans before le, rest⟩

/-- It leaves there, if there is no conflict before, -/
theorem LeavesBy.at_first {D : Finset RomCode} {m d : RomCode} {c : Nat} (leaves : LeavesBy D m c d)
    (first : conflicts D m c = 0) : Same c d m ∧ d.bit c = true := by
  obtain ⟨f, le, conflict, same, set⟩ := leaves
  rcases Nat.lt_or_eq_of_le le with lt | rfl
  · exact absurd conflict (conflicts_eq_zero.mp first f lt)
  · exact ⟨same, set⟩

/-- and there or by the last one before. -/
theorem LeavesBy.at_or_before {D : Finset RomCode} {m d : RomCode} {p c : Nat} (leaves : LeavesBy D m c d)
    (last : LastConflict D m c p) : Same c d m ∧ d.bit c = true ∨ LeavesBy D m p d := by
  obtain ⟨f, le, conflict, same, set⟩ := leaves
  rcases Nat.lt_or_eq_of_le le with lt | rfl
  · exact Or.inr ⟨f, last.le conflict lt, conflict, same, set⟩
  · exact Or.inl ⟨same, set⟩

/-- Who is on the leftmost path up to `c` has not left it before. -/
theorem not_leavesBy {D : Finset RomCode} {m d : RomCode} (left : Leftmost RomCode.bit RomCode.width D m) {p c : Nat}
    (same : Same c d m) (before : p < c) (bound : c < RomCode.width) : ¬ LeavesBy D m p d := by
  rintro ⟨f, le, conflict, _, set⟩
  rw [same f (by omega), left.clear f (by omega) conflict] at set
  cases set

/-- The calls from a pending conflict on yield the devices that leave by it. -/
theorem scanCalls_pending {D : Finset RomCode} {m : RomCode} (left : Leftmost RomCode.bit RomCode.width D m)
    (comb : Comb RomCode.bit RomCode.width D) (valid : ∀ d ∈ D, d.valid = true) :
    ∀ c sc w, Pending D m sc c → ∃ codes : List RomCode, codes.Nodup ∧
      (∀ d, d ∈ codes ↔ d ∈ D ∧ LeavesBy D m c d) ∧
      scanCalls (fixedBus D) (codes.length + 1) sc w =
        codes.map (fun code => (.ret .ok, code)) ++ [(.ret .noData, .new)] := by
  intro c
  induction c using Nat.strong_induction_on with
  | _ c ih =>
    intro sc w pending
    have nonempty : D.Nonempty := ⟨m, left.member⟩
    obtain ⟨sc', code, result, path, set, taken⟩ := walk_pending left comb pending
    have member := walk_device nonempty result
    obtain ⟨w', calls⟩ := scanCalls_walk nonempty pending.ready.opened result (valid _ member) w
    -- in a comb the device taken is the only one that leaves at `c`
    have only : ∀ d ∈ D, Same c d m → d.bit c = true → d = code := fun d hd same setD =>
      comb d hd code member m left.member c pending.bound ⟨same, path.symm⟩
        ⟨setD, set, left.clear c pending.bound pending.conflict⟩
    cases pending.next left result taken with
    | ended final finished =>
      refine ⟨[code], List.nodup_singleton code, fun d => ?_, ?_⟩
      · rw [List.mem_singleton]
        constructor
        · rintro rfl
          exact ⟨member, .here pending.conflict path.symm set⟩
        · rintro ⟨hd, leaves⟩
          obtain ⟨same, setD⟩ := leaves.at_first final
          exact only d hd same setD
      · rw [List.length_singleton, calls, scanCalls_finished _ finished]
        rfl
    | more p last pending' =>
      obtain ⟨codes, distinct, mem, rest⟩ := ih p last.before sc'.conclude w' pending'
      refine ⟨code :: codes, List.nodup_cons.mpr ⟨fun again => ?_, distinct⟩, fun d => ?_, ?_⟩
      · exact not_leavesBy left path.symm last.before pending.bound ((mem code).mp again).2
      · rw [List.mem_cons, mem]
        constructor
        · rintro (rfl | ⟨hd, leaves⟩)
          · exact ⟨member, .here pending.conflict path.symm set⟩
          · exact ⟨hd, leaves.mono (Nat.le_of_lt last.before)⟩
        · rintro ⟨hd, leaves⟩
          rcases leaves.at_or_before last with ⟨same, setD⟩ | before
          · exact Or.inl (only d hd same setD)
          · exact Or.inr ⟨hd, before⟩
      · rw [List.length_cons, calls, rest]
        rfl

theorem enumerates_of_comb {D : Finset RomCode} (nonempty : D.Nonempty) (valid : ∀ d ∈ D, d.valid = true)
    (comb : Comb RomCode.bit RomCode.width D) : Enumerates D := by
  obtain ⟨m, left⟩ : ∃ m, Leftmost RomCode.bit RomCode.width D m := exists_leftmost nonempty RomCode.width
  obtain ⟨sc, code, result, first⟩ := walk_first left
  obtain rfl : m = code := RomCode.ext_bits first.path
  obtain ⟨w, calls⟩ := scanCalls_walk nonempty (rfl : RomCodeScanner.new.finished = false) result
    (valid _ left.member) .idle
  have leaves : ∀ d ∈ D, d = m ∨ ∃ f < RomCode.width, Conflict D m f ∧ Same f d m ∧ d.bit f = true := by
    intro d hd
    by_cases same : Same RomCode.width d m
    · exact Or.inl (RomCode.ext_bits same)
    · exact Or.inr (left.leaves hd same)
  cases first.next left result with
  | ended none ended =>
    -- a single device: the first call ends the search
    refine ⟨[m], List.nodup_singleton m, fun d => ?_, ?_⟩
    · rw [List.mem_singleton]
      refine ⟨fun same => same ▸ left.member, fun hd => (leaves d hd).resolve_right ?_⟩
      rintro ⟨f, bound, conflict, _⟩
      exact conflicts_eq_zero.mp none f bound conflict
    · rw [List.length_singleton, calls, scanCalls_finished _ ended]
      rfl
  | more c last pending =>
    obtain ⟨codes, distinct, mem, rest⟩ := scanCalls_pending left comb valid c sc.conclude w pending
    refine ⟨m :: codes, List.nodup_cons.mpr ⟨fun again => ?_, distinct⟩, fun d => ?_, ?_⟩
    · obtain ⟨_, f, le, conflict, _, set⟩ := (mem m).mp again
      rw [left.clear f (Nat.lt_of_le_of_lt le last.before) conflict] at set
      cases set
    · rw [List.mem_cons, mem]
      constructor
      · rintro (rfl | ⟨hd, _⟩)
        · exact left.member
        · exact hd
      · intro hd
        rcases leaves d hd with same | ⟨f, bound, conflict, path⟩
        · exact Or.inl same
        · exact Or.inr ⟨hd, f, last.le conflict bound, conflict, path⟩
    · rw [List.length_cons, calls, rest]
      rfl

/-- **The ROM search enumerates the bus exactly when its devices form a comb.** -/
theorem enumerates_iff_comb {D : Finset RomCode} (nonempty : D.Nonempty) (valid : ∀ d ∈ D, d.valid = true) :
    Enumerates D ↔ Comb RomCode.bit RomCode.width D :=
  ⟨comb_of_enumerates nonempty valid, enumerates_of_comb nonempty valid⟩

/-! ## Two and three devices -/

/-- A DS18B20 code by the low byte of its serial number and its CRC. -/
def thermometer (serial crc : BitVec 8) : RomCode := ⟨#v[0x28, serial, 0, 0, 0, 0, 0, crc]⟩

def thermometer0 : RomCode := thermometer 0 0x1E
def thermometer1 : RomCode := thermometer 1 0x29
def thermometer3 : RomCode := thermometer 3 0x47

/-- Two devices always form a comb. -/
theorem enumerates_two : Enumerates {thermometer0, thermometer1} :=
  (enumerates_iff_comb ⟨thermometer0, by decide⟩ (by decide +kernel)).mpr (by decide +kernel)

/-- Three thermometers behind two conflicts: the third call repeats the first device. -/
theorem scanCalls_three :
    scanCalls (fixedBus {thermometer0, thermometer1, thermometer3}) 4 .new .idle =
      [(.ret .ok, thermometer0), (.ret .ok, thermometer1), (.ret .ok, thermometer0), (.ret .ok, thermometer0)] := by
  decide +kernel

theorem not_enumerates_three :
    (∀ d ∈ ({thermometer0, thermometer1, thermometer3} : Finset RomCode), d.valid = true) ∧
      ¬ Enumerates {thermometer0, thermometer1, thermometer3} := by
  refine ⟨by decide +kernel, ?_⟩
  rintro ⟨codes, distinct, all, calls⟩
  have three : codes.length = 3 := by
    rw [← List.toFinset_card_of_nodup distinct]
    have same : codes.toFinset = {thermometer0, thermometer1, thermometer3} := by
      ext d; rw [List.mem_toFinset, all]
    rw [same]
    decide
  rw [three, scanCalls_three] at calls
  have final := congrArg List.getLast? calls
  simp at final

end OcsComponents.OneWire
