import OcsComponents.Lib.BitTrie
import OcsComponents.OneWire.RomCodeScanner

/-!
# A scan is a walk down the trie

On the wired-AND bus the still-selected devices are the subtree of the attached set
below the bits chosen so far, and the two read slots tell whether it forks. So
`scan` is a walk from the root: forced where the set does not fork, and decided by
`handleDiscrepancy` where it does (`scan_walk`). The rest of the search is proved
about `walk` by its two loop rules, `walk_rule` and `walk_total`.
-/

namespace OcsComponents.OneWire
open Status BitTrie

/-- The first `n` bits of two codes. -/
abbrev Same (n : Nat) (a b : RomCode) : Prop := Agree RomCode.bit n a b

/-- The attached devices conflict at bit `n` of the path `p`. -/
abbrev Conflict (D : Finset RomCode) (p : RomCode) (n : Nat) : Prop := Fork RomCode.bit D p n

/-- The devices still selected after the first `n` bits of `p`. -/
abbrev selected (D : Finset RomCode) (p : RomCode) (n : Nat) : Finset RomCode := subtree RomCode.bit D p n

/-- The bit a scan writes at `n` when the devices are `D`, and the scanner after it. -/
def chooseBit (D : Finset RomCode) (sc : RomCodeScanner) (buf : RomCode) (n : Nat) :
    Except Fault (RomCodeScanner × Bool) :=
  if Conflict D buf n then sc.handleDiscrepancy buf n
  else .ok (sc, decide (∀ d ∈ selected D buf n, d.bit n = true))

/-- The first `n` bits of a scan of `D` into a new code. -/
def walk (D : Finset RomCode) (sc : RomCodeScanner) : Nat → Except Fault (RomCodeScanner × RomCode)
  | 0 => .ok (sc, .new)
  | n + 1 =>
    match walk D sc n with
    | .ok (sc, buf) =>
      match chooseBit D sc buf n with
      | .ok (sc, bit) => .ok (sc, buf.assign n bit)
      | .error f => .error f
    | .error f => .error f

/-! ## One bit -/

theorem same_assign {d buf : RomCode} {n k : Nat} {b : Bool} (hn : n < RomCode.width) (hk : k ≤ n) :
    Same k d (buf.assign n b) ↔ Same k d buf := by
  constructor <;> intro h i hi <;> have := h i hi <;>
    simpa [RomCode.assign_bit buf b hn (Nat.lt_of_lt_of_le hi (Nat.le_trans hk (Nat.le_of_lt hn))),
      show i ≠ n by omega] using this

theorem same_assign_succ {d buf : RomCode} {n : Nat} {b : Bool} (hn : n < RomCode.width) :
    Same (n + 1) d (buf.assign n b) ↔ Same n d buf ∧ d.bit n = b := by
  rw [Same, agree_succ, RomCode.assign_bit buf b hn hn, if_pos rfl]
  exact and_congr_left' (same_assign hn (Nat.le_refl n))

theorem conflict_assign {D : Finset RomCode} {buf : RomCode} {n k : Nat} {b : Bool} (hn : n < RomCode.width)
    (hk : k ≤ n) : Conflict D (buf.assign n b) k ↔ Conflict D buf k :=
  fork_congr (((same_assign hn hk).mpr (.refl k buf)).symm)

theorem chooseBit_conflict {D : Finset RomCode} {sc : RomCodeScanner} {buf : RomCode} {n : Nat}
    (h : Conflict D buf n) : chooseBit D sc buf n = sc.handleDiscrepancy buf n := by
  simp [chooseBit, h]

/-- Without a conflict the bit is the one every selected device has. -/
theorem chooseBit_forced {D : Finset RomCode} {sc : RomCodeScanner} {buf d : RomCode} {n : Nat}
    (member : d ∈ D) (onPath : Same n d buf) (h : ¬ Conflict D buf n) :
    chooseBit D sc buf n = .ok (sc, d.bit n) := by
  rw [chooseBit, if_neg h]
  congr 2
  rw [Bool.eq_iff_iff, decide_eq_true_iff]
  constructor
  · intro all
    exact all d (mem_subtree.mpr ⟨member, onPath⟩)
  · intro set e he
    obtain ⟨heD, agree⟩ := mem_subtree.mp he
    by_contra unset
    exact h ⟨⟨e, heD, agree, by simpa using unset⟩, d, member, onPath, set⟩

/-- What a walk has kept after `n` bits: some device is still selected, and the
buffer is untouched from bit `n` on. -/
structure OnPath (D : Finset RomCode) (buf : RomCode) (n : Nat) : Prop where
  device : ∃ d ∈ D, Same n d buf
  fresh : ∀ m, n ≤ m → m < RomCode.width → buf.bit m = false

theorem OnPath.start {D : Finset RomCode} (nonempty : D.Nonempty) : OnPath D .new 0 := by
  obtain ⟨d, hd⟩ := nonempty
  exact ⟨⟨d, hd, fun i hi => absurd hi (Nat.not_lt_zero i)⟩, fun m _ _ => RomCode.new_bit m⟩

/-- Either side of a conflict is inhabited, and a forced bit is a device's. -/
theorem OnPath.next {D : Finset RomCode} {sc sc' : RomCodeScanner} {buf : RomCode} {n : Nat} {b : Bool}
    (path : OnPath D buf n) (hn : n < RomCode.width) (step : chooseBit D sc buf n = .ok (sc', b)) :
    OnPath D (buf.assign n b) (n + 1) := by
  refine ⟨?_, fun m lo hi => ?_⟩
  · by_cases conflict : Conflict D buf n
    · obtain ⟨⟨a, ha, agreeA, clear⟩, c, hc, agreeC, set⟩ := conflict
      cases b with
      | false => exact ⟨a, ha, (same_assign_succ hn).mpr ⟨agreeA, clear⟩⟩
      | true => exact ⟨c, hc, (same_assign_succ hn).mpr ⟨agreeC, set⟩⟩
    · obtain ⟨d, hd, agree⟩ := path.device
      rw [chooseBit_forced hd agree conflict] at step
      cases step
      exact ⟨d, hd, (same_assign_succ hn).mpr ⟨agree, rfl⟩⟩
  · rw [RomCode.assign_bit buf b hn hi, if_neg (by omega)]
    exact path.fresh m (by omega) hi

/-! ## The loop rules -/

theorem walk_succ {D : Finset RomCode} {sc sc' : RomCodeScanner} {buf : RomCode} {n : Nat}
    (h : walk D sc n = .ok (sc', buf)) :
    walk D sc (n + 1) = match chooseBit D sc' buf n with
      | .ok (sc, bit) => .ok (sc, buf.assign n bit)
      | .error f => .error f := by
  simp only [walk, h]

/-- A walk that has faulted stays faulted. -/
theorem walk_stays {D : Finset RomCode} {sc : RomCodeScanner} {f : Fault} {n : Nat}
    (h : walk D sc n = .error f) : ∀ m, n ≤ m → walk D sc m = .error f := by
  intro m le
  induction m, le using Nat.le_induction with
  | base => exact h
  | succ m _ ih => simp only [walk, ih]

/-- Later bits leave the earlier ones as they are. -/
theorem walk_same {D : Finset RomCode} {sc sc₁ : RomCodeScanner} {buf₁ : RomCode} {k : Nat}
    (before : walk D sc k = .ok (sc₁, buf₁)) : ∀ n, k ≤ n → n ≤ RomCode.width → ∀ {sc₂ buf₂},
      walk D sc n = .ok (sc₂, buf₂) → Same k buf₁ buf₂ := by
  intro n le
  induction n, le using Nat.le_induction with
  | base =>
    intro _ sc₂ buf₂ h
    rw [before] at h
    cases h
    exact .refl k buf₁
  | succ n le ih =>
    intro bound sc₂ buf₂ h
    cases walked : walk D sc n with
    | error f => rw [walk_stays walked _ (Nat.le_succ n)] at h; cases h
    | ok r =>
      obtain ⟨sc', buf'⟩ := r
      rw [walk_succ walked] at h
      cases step : chooseBit D sc' buf' n with
      | error f => rw [step] at h; cases h
      | ok c =>
        rw [step] at h
        cases h
        exact (same_assign (by omega) le).mpr (ih (by omega) walked)

theorem walk_onPath {D : Finset RomCode} (nonempty : D.Nonempty) {sc : RomCodeScanner} :
    ∀ n ≤ RomCode.width, ∀ {sc' buf}, walk D sc n = .ok (sc', buf) → OnPath D buf n := by
  intro n
  induction n with
  | zero => intro _ sc' buf h; cases h; exact .start nonempty
  | succ n ih =>
    intro bound sc' buf h
    cases before : walk D sc n with
    | error f => simp only [walk, before] at h; cases h
    | ok r =>
      obtain ⟨sc₁, buf₁⟩ := r
      rw [walk_succ before] at h
      cases step : chooseBit D sc₁ buf₁ n with
      | error f => rw [step] at h; cases h
      | ok c =>
        obtain ⟨sc₂, b⟩ := c
        rw [step] at h
        cases h
        exact (ih (by omega) before).next bound step

/-- **The loop rule** of a walk: an invariant that every bit keeps holds of the
result, whether or not the walk gets there. -/
theorem walk_rule {D : Finset RomCode} (nonempty : D.Nonempty) {sc₀ : RomCodeScanner}
    (Inv : Nat → RomCodeScanner → RomCode → Prop) (init : Inv 0 sc₀ .new)
    (keep : ∀ n < RomCode.width, ∀ sc buf sc' b, OnPath D buf n → Inv n sc buf →
      chooseBit D sc buf n = .ok (sc', b) → Inv (n + 1) sc' (buf.assign n b)) :
    ∀ n ≤ RomCode.width, ∀ {sc buf}, walk D sc₀ n = .ok (sc, buf) → Inv n sc buf := by
  intro n
  induction n with
  | zero => intro _ sc buf h; cases h; exact init
  | succ n ih =>
    intro bound sc buf h
    cases before : walk D sc₀ n with
    | error f => simp only [walk, before] at h; cases h
    | ok r =>
      obtain ⟨sc₁, buf₁⟩ := r
      have path := walk_onPath nonempty n (by omega) before
      rw [walk_succ before] at h
      cases step : chooseBit D sc₁ buf₁ n with
      | error f => rw [step] at h; cases h
      | ok c =>
        obtain ⟨sc₂, b⟩ := c
        rw [step] at h
        cases h
        exact keep n bound sc₁ buf₁ sc b path (ih (by omega) before) step

/-- The total loop rule, from bit `k` on: if the invariant also keeps every bit from
faulting, the walk gets to its end. -/
theorem walk_total {D : Finset RomCode} (nonempty : D.Nonempty) {sc₀ : RomCodeScanner}
    (Inv : Nat → RomCodeScanner → RomCode → Prop) {k last : Nat} (bound : last ≤ RomCode.width)
    (init : ∃ sc buf, walk D sc₀ k = .ok (sc, buf) ∧ Inv k sc buf)
    (keep : ∀ n, k ≤ n → n < last → ∀ sc buf, OnPath D buf n → Inv n sc buf →
      ∃ sc' b, chooseBit D sc buf n = .ok (sc', b) ∧ Inv (n + 1) sc' (buf.assign n b)) :
    ∀ n, k ≤ n → n ≤ last → ∃ sc buf, walk D sc₀ n = .ok (sc, buf) ∧ Inv n sc buf := by
  intro n from_
  induction n, from_ using Nat.le_induction with
  | base => intro _; exact init
  | succ n from_ ih =>
    intro hn
    obtain ⟨sc, buf, before, inv⟩ := ih (by omega)
    have path := walk_onPath nonempty n (by omega) before
    obtain ⟨sc', b, step, next⟩ := keep n from_ hn sc buf path inv
    exact ⟨sc', buf.assign n b, by rw [walk_succ before, step], next⟩

/-! ## The scan -/

/-- The phase the devices are in when bit `n` of a scan is due. -/
def phaseAt (n : Nat) : Phase := if n < RomCode.width then .bit n else .silent

theorem selected_assign {D : Finset RomCode} {buf : RomCode} {n : Nat} {b : Bool} (hn : n < RomCode.width) :
    (selected D buf n).filter (fun d => d.bit n = b) = selected D (buf.assign n b) (n + 1) := by
  ext d
  simp only [selected, Finset.mem_filter, mem_subtree, and_assoc]
  exact and_congr_right' (same_assign_succ hn).symm

theorem putBit_wire (sets : Nat → Finset RomCode) {session : Nat} {D : Finset RomCode} {sc : RomCodeScanner}
    {buf : RomCode} {n : Nat} (b : Bool) (hn : n < RomCode.width) :
    Scan.putBit (wiredAnd sets) n b ⟨sc, buf, ⟨session, selected D buf n, .select n⟩⟩ =
      (none, ⟨sc, buf.assign n b, ⟨session, selected D (buf.assign n b) (n + 1), phaseAt (n + 1)⟩⟩) := by
  simp only [Scan.putBit, wiredAnd, Wire.writeBit, selected_assign hn, phaseAt]

/-- The two read slots of iteration `n`, and the choice between the three branches. -/
theorem scanBit_slots {sets : Nat → Finset RomCode} {session : Nat} {S : Finset RomCode} {sc : RomCodeScanner}
    {buf : RomCode} {n : Nat} (hn : n < RomCode.width) {bit1 bit2 : Bool}
    (first : decide (∀ d ∈ S, d.bit n = true) = bit1) (second : decide (∀ d ∈ S, d.bit n = false) = bit2) :
    Scan.scanBit (wiredAnd sets) n ⟨sc, buf, ⟨session, S, phaseAt n⟩⟩ =
      if bit1 && bit2 then (some (.ret .noData), ⟨sc, buf, ⟨session, S, .select n⟩⟩)
      else if !bit1 && !bit2 then
        match sc.handleDiscrepancy buf n with
        | .ok (scanner, bit) => Scan.putBit (wiredAnd sets) n bit ⟨scanner, buf, ⟨session, S, .select n⟩⟩
        | .error f => (some (.fault f), ⟨sc, buf, ⟨session, S, .select n⟩⟩)
      else Scan.putBit (wiredAnd sets) n (bit1 && !bit2) ⟨sc, buf, ⟨session, S, .select n⟩⟩ := by
  have one : (wiredAnd sets).readBit ⟨session, S, phaseAt n⟩ = ((.ok, bit1), ⟨session, S, .complement n⟩) := by
    simp only [wiredAnd, Wire.readBit, phaseAt, if_pos hn, first]
  have two : (wiredAnd sets).readBit ⟨session, S, .complement n⟩ = ((.ok, bit2), ⟨session, S, .select n⟩) := by
    simp only [wiredAnd, Wire.readBit, second]
  rw [Scan.scanBit, one]
  dsimp only
  generalize (wiredAnd sets).readBit ⟨session, S, .complement n⟩ = slot at two ⊢
  subst two
  rfl

/-- One iteration of `scan_` on the wire is one bit of the walk. -/
theorem scanBit_wire (sets : Nat → Finset RomCode) (session : Nat) {D : Finset RomCode} (sc : RomCodeScanner)
    {buf : RomCode} {n : Nat} (hn : n < RomCode.width) (path : OnPath D buf n) :
    match chooseBit D sc buf n with
    | .ok (sc', b) =>
      Scan.scanBit (wiredAnd sets) n ⟨sc, buf, ⟨session, selected D buf n, phaseAt n⟩⟩ =
        (none, ⟨sc', buf.assign n b, ⟨session, selected D (buf.assign n b) (n + 1), phaseAt (n + 1)⟩⟩)
    | .error f =>
      ∃ w, Scan.scanBit (wiredAnd sets) n ⟨sc, buf, ⟨session, selected D buf n, phaseAt n⟩⟩ =
        (some (.fault f), ⟨sc, buf, w⟩) := by
  obtain ⟨d, hd, agree⟩ := path.device
  have member : d ∈ selected D buf n := mem_subtree.mpr ⟨hd, agree⟩
  by_cases conflict : Conflict D buf n
  · rw [chooseBit_conflict conflict]
    obtain ⟨⟨a, ha, agreeA, clear⟩, c, hc, agreeC, set⟩ := conflict
    -- both slots read 0: someone pulls the line down in each of them
    have first : decide (∀ d ∈ selected D buf n, d.bit n = true) = false := by
      refine decide_eq_false (fun all => ?_)
      rw [all a (mem_subtree.mpr ⟨ha, agreeA⟩)] at clear
      cases clear
    have second : decide (∀ d ∈ selected D buf n, d.bit n = false) = false := by
      refine decide_eq_false (fun all => ?_)
      rw [all c (mem_subtree.mpr ⟨hc, agreeC⟩)] at set
      cases set
    rw [scanBit_slots hn first second]
    cases step : sc.handleDiscrepancy buf n with
    | ok r => exact putBit_wire sets r.2 hn
    | error f => exact ⟨_, rfl⟩
  · rw [chooseBit_forced hd agree conflict]
    have forced : ∀ e ∈ selected D buf n, e.bit n = d.bit n := by
      intro e he
      obtain ⟨heD, agreeE⟩ := mem_subtree.mp he
      by_contra differ
      apply conflict
      cases value : d.bit n with
      | false => exact ⟨⟨d, hd, agree, value⟩, e, heD, agreeE, by rw [value] at differ; simpa using differ⟩
      | true => exact ⟨⟨e, heD, agreeE, by rw [value] at differ; simpa using differ⟩, d, hd, agree, value⟩
    have first : decide (∀ d ∈ selected D buf n, d.bit n = true) = d.bit n := by
      rw [Bool.eq_iff_iff, decide_eq_true_iff]
      exact ⟨fun all => all d member, fun set e he => (forced e he).trans set⟩
    have second : decide (∀ d ∈ selected D buf n, d.bit n = false) = !d.bit n := by
      rw [Bool.eq_iff_iff, decide_eq_true_iff, Bool.not_eq_true']
      exact ⟨fun all => all d member, fun clear e he => (forced e he).trans clear⟩
    rw [scanBit_slots hn first second]
    simpa using putBit_wire sets (d.bit n) hn

/-- The loop of `scan_` from bit `n` on is the rest of the walk. -/
theorem scanBits_wire (sets : Nat → Finset RomCode) (session : Nat) {D : Finset RomCode} (nonempty : D.Nonempty)
    {sc₀ : RomCodeScanner} :
    ∀ k n, n + k = RomCode.width → ∀ {sc buf}, walk D sc₀ n = .ok (sc, buf) →
      match walk D sc₀ RomCode.width with
      | .ok (sc', buf') => ∃ w,
        Scan.scanBits (wiredAnd sets) n k ⟨sc, buf, ⟨session, selected D buf n, phaseAt n⟩⟩ =
          (.ret .ok, ⟨sc', buf', w⟩) ∧ w.session = session
      | .error f => ∃ s,
        Scan.scanBits (wiredAnd sets) n k ⟨sc, buf, ⟨session, selected D buf n, phaseAt n⟩⟩ = (.fault f, s) := by
  intro k
  induction k with
  | zero =>
    intro n last sc buf before
    obtain rfl : n = RomCode.width := by omega
    rw [before]
    exact ⟨_, rfl, rfl⟩
  | succ k ih =>
    intro n last sc buf before
    have hn : n < RomCode.width := by omega
    have path := walk_onPath nonempty n (Nat.le_of_lt hn) before
    have bit := scanBit_wire sets session sc hn path
    have next := walk_succ before
    cases step : chooseBit D sc buf n with
    | ok r =>
      obtain ⟨sc', b⟩ := r
      rw [step] at bit next
      dsimp only at bit
      simp only [Scan.scanBits, bit]
      exact ih (n + 1) (by omega) next
    | error f =>
      rw [step] at bit next
      obtain ⟨w, bit⟩ := bit
      rw [walk_stays next RomCode.width (by omega)]
      exact ⟨⟨sc, buf, w⟩, by simp only [Scan.scanBits, bit]⟩

/-- The end of a successful `scan`: without a pending conflict the search is over. -/
def RomCodeScanner.conclude (sc : RomCodeScanner) : RomCodeScanner :=
  if sc.conflictCount = 0 then { sc with finished := true } else sc

/-- **`scan` refines `walk`**: a call on devices `D`, not finished, with a new code. -/
theorem scan_walk (sets : Nat → Finset RomCode) (w : Wire) (nonempty : (sets w.session).Nonempty)
    {sc : RomCodeScanner} (open' : sc.finished = false) :
    match walk (sets w.session) sc RomCode.width with
    | .ok (sc', code) => ∃ w', w'.session = w.session + 1 ∧
      Scan.scan (wiredAnd sets) ⟨sc, .new, w⟩ =
        if code.valid then
          (.ret .ok, ⟨sc'.conclude, code, w'⟩)
        else (.ret .error, ⟨sc', code, w'⟩)
    | .error f => ∃ s, Scan.scan (wiredAnd sets) ⟨sc, .new, w⟩ = (.fault f, s) := by
  have bits := scanBits_wire sets (w.session + 1) nonempty RomCode.width 0 (by simp)
    (show walk (sets w.session) sc 0 = .ok (sc, .new) from rfl)
  have reset : (wiredAnd sets).reset w = (.ok, ⟨w.session + 1, sets w.session, .command []⟩) := by
    simp [wiredAnd, Wire.reset, nonempty]
  have search : (wiredAnd sets).writeByte 0xF0 ⟨w.session + 1, sets w.session, .command []⟩ =
      (.ok, ⟨w.session + 1, selected (sets w.session) .new 0, phaseAt 0⟩) := by
    rw [wiredAnd_search, selected, subtree_zero]
    rfl
  cases result : walk (sets w.session) sc RomCode.width with
  | ok r =>
    obtain ⟨sc', code⟩ := r
    rw [result] at bits
    obtain ⟨w', bits, session⟩ := bits
    refine ⟨w', session, ?_⟩
    simp only [Scan.scan, open', reset, search, bits]
    by_cases valid : code.valid <;> by_cases zero : sc'.conflictCount = 0#32 <;>
      simp [valid, zero, RomCodeScanner.conclude]
  | error f =>
    rw [result] at bits
    obtain ⟨s, bits⟩ := bits
    exact ⟨s, by simp only [Scan.scan, open', reset, search, bits, Bool.false_eq_true, if_false]⟩

end OcsComponents.OneWire
