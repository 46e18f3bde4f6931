import OcsComponents.Lib.WhileLoop
import OcsComponents.OneWire.Assertions
import OcsComponents.OneWire.Enumeration

/-!
# The ROM search loops

`scan_rom_codes` and `find_rom_code` of `httpserver/ds18b20_handler.cpp`: `while (true)`
around one scanner, with a new code for every call. They have no counter, so they
leave only when a call fails, the body is satisfied, or the scanner is finished. While the
calls retrace the last code's path every code ranks above the one before, as
the first bit they differ in is one it has set; this is what ends the loops. A call
that has nothing to take leaves the scanner as it was, and repeats for ever on
devices that stay.
-/

namespace OcsComponents.Pipeline
open Status OneWire BitTrie WhileLoop

/-- What a search loop holds between two iterations; `acc` is what its body works on. -/
structure RomSearch (β σ : Type) where
  scanner : RomCodeScanner
  bus : β
  acc : σ

section
variable {β σ : Type} (B : Bus β)

/-- One iteration: `onCode` leaves with a status or goes on, `onEnd` is the status to
leave with when the call is not `OK`. -/
def searchBody (onCode : RomCode → σ → Option StatusCode × σ) (onEnd : StatusCode → StatusCode)
    (s : RomSearch β σ) : (Outcome × σ) ⊕ (RomCode × RomSearch β σ) :=
  match Scan.scan B ⟨s.scanner, .new, s.bus⟩ with
  | (.ret .ok, r) =>
    match onCode r.buf s.acc with
    | (none, acc) => .inr (r.buf, ⟨r.scanner, r.bus, acc⟩)
    | (some code, acc) => .inl (.ret code, acc)
  | (.ret code, _) => .inl (.ret (onEnd code), s.acc)
  | (.fault f, _) => .inl (.fault f, s.acc)

/-- The body of `scan_rom_codes`, with `append` for `formatter.append_string`. -/
def scanRomCodesBody (append : String → σ → Bool × σ) :
    RomSearch β σ → (Outcome × σ) ⊕ (RomCode × RomSearch β σ) :=
  searchBody B
    (fun romCode acc =>
      match append (serialNumberToStr romCode.serialNumber) acc with
      | (true, acc) => (none, acc)
      | (false, acc) => (some .noMem, acc))
    (fun code => if code ≠ .noData then code else .ok)

def scanRomCodes (append : String → σ → Bool × σ) (bus : β) (formatter : σ) (fuel : Nat) : Option (Outcome × σ) :=
  run (scanRomCodesBody B append) fuel ⟨.new, bus, formatter⟩

/-- The body of `find_rom_code`; `acc` is `configuration.rom_code`. -/
def findRomCodeBody : RomSearch β RomCode → (Outcome × RomCode) ⊕ (RomCode × RomSearch β RomCode) :=
  searchBody B
    (fun romCode configured =>
      if romCode.serialNumber = configured.serialNumber then (some .ok, romCode) else (none, configured))
    id

def findRomCode (bus : β) (configured : RomCode) (fuel : Nat) : Option (Outcome × RomCode) :=
  run (findRomCodeBody B) fuel ⟨.new, bus, configured⟩

end

/-! ## One iteration -/

section
variable {σ : Type} {sets : Nat → Finset RomCode} {onCode : RomCode → σ → Option StatusCode × σ}
  {onEnd : StatusCode → StatusCode}

/-- A call whose walk can be told: the devices are there and the search is open. -/
theorem scan_cases (sets : Nat → Finset RomCode) (sc : RomCodeScanner) (w : Wire) :
    (∃ code s, code ≠ .ok ∧ Scan.scan (wiredAnd sets) ⟨sc, .new, w⟩ = (.ret code, s)) ∨
      sc.finished = false ∧ (sets w.session).Nonempty := by
  by_cases finished : sc.finished = true
  · exact Or.inl ⟨.noData, _, by decide, by simp [Scan.scan, finished]; rfl⟩
  · by_cases nonempty : (sets w.session).Nonempty
    · exact Or.inr ⟨by simpa using finished, nonempty⟩
    · exact Or.inl ⟨.error, _, by decide, by simp [Scan.scan, finished, wiredAnd, Wire.reset, nonempty]; rfl⟩

/-- An iteration that goes on has walked to a valid code. -/
theorem searchBody_inr {s s' : RomSearch Wire σ} {code : RomCode}
    (h : searchBody (wiredAnd sets) onCode onEnd s = .inr (code, s')) :
    s.scanner.finished = false ∧ (sets s.bus.session).Nonempty ∧ s'.bus.session = s.bus.session + 1 ∧
      ∃ sc, walk (sets s.bus.session) s.scanner RomCode.width = .ok (sc, code) ∧ s'.scanner = sc.conclude := by
  rcases scan_cases sets s.scanner s.bus with ⟨failed, r, notOk, call⟩ | ⟨opened, nonempty⟩
  · cases failed <;> simp_all [searchBody]
  · have call := scan_walk sets s.bus nonempty opened
    cases result : walk (sets s.bus.session) s.scanner RomCode.width with
    | error f =>
      rw [result] at call
      obtain ⟨r, call⟩ := call
      simp [searchBody, call] at h
    | ok r =>
      obtain ⟨sc, found⟩ := r
      rw [result] at call
      obtain ⟨w, session, call⟩ := call
      by_cases valid : found.valid = true
      · rw [if_pos valid] at call
        simp only [searchBody, call] at h
        cases choice : onCode found s.acc with
        | mk leave acc =>
          rw [choice] at h
          cases leave with
          | some status => cases h
          | none => cases h; exact ⟨opened, nonempty, session, sc, rfl, rfl⟩
      · rw [if_neg valid] at call
        simp [searchBody, call] at h

/-- A walk to a valid code is an iteration that goes on, if the body does. -/
theorem searchBody_walk (sets : Nat → Finset RomCode) (s : RomSearch Wire σ) {sc : RomCodeScanner}
    {code : RomCode} {acc : σ}
    (nonempty : (sets s.bus.session).Nonempty) (opened : s.scanner.finished = false)
    (result : walk (sets s.bus.session) s.scanner RomCode.width = .ok (sc, code)) (valid : code.valid = true)
    (choice : onCode code s.acc = (none, acc)) :
    ∃ w, w.session = s.bus.session + 1 ∧
      searchBody (wiredAnd sets) onCode onEnd s = .inr (code, ⟨sc.conclude, w, acc⟩) := by
  have call := scan_walk sets s.bus nonempty opened
  rw [result] at call
  obtain ⟨w, session, call⟩ := call
  rw [if_pos valid] at call
  exact ⟨w, session, by simp only [searchBody, call, choice]⟩

/-- An iteration that goes on has gone on with what `onCode` made of the code. -/
theorem searchBody_acc {β : Type} {B : Bus β} {s s' : RomSearch β σ} {code : RomCode}
    (h : searchBody B onCode onEnd s = .inr (code, s')) : onCode code s.acc = (none, s'.acc) := by
  unfold searchBody at h
  split at h
  · rename_i r _
    cases choice : onCode r.buf s.acc with
    | mk leave acc => rw [choice] at h; cases leave <;> cases h; exact choice
  all_goals cases h

/-- An iteration stops the program exactly when its walk trips an assertion. -/
theorem searchBody_fault {s : RomSearch Wire σ} {f : Fault} {acc : σ} :
    searchBody (wiredAnd sets) onCode onEnd s = .inl (.fault f, acc) ↔
      acc = s.acc ∧ s.scanner.finished = false ∧ (sets s.bus.session).Nonempty ∧
        walk (sets s.bus.session) s.scanner RomCode.width = .error f := by
  rcases scan_cases sets s.scanner s.bus with ⟨failed, r, notOk, call⟩ | ⟨opened, nonempty⟩
  · constructor
    · intro h
      cases failed <;> simp_all [searchBody]
    · rintro ⟨_, opened, nonempty, result⟩
      have stops := scan_walk sets s.bus nonempty opened
      rw [result] at stops
      obtain ⟨r', stops⟩ := stops
      rw [call] at stops
      cases stops
  · have call := scan_walk sets s.bus nonempty opened
    cases result : walk (sets s.bus.session) s.scanner RomCode.width with
    | error f' =>
      rw [result] at call
      obtain ⟨r, call⟩ := call
      simp [searchBody, call, opened, nonempty, eq_comm, and_comm]
    | ok r =>
      obtain ⟨sc, found⟩ := r
      rw [result] at call
      obtain ⟨w, session, call⟩ := call
      refine ⟨fun h => ?_, fun ⟨_, _, _, stops⟩ => by cases stops⟩
      by_cases valid : found.valid = true
      · rw [if_pos valid] at call
        simp only [searchBody, call] at h
        cases choice : onCode found s.acc with
        | mk leave acc' => rw [choice] at h; cases leave <;> cases h
      · rw [if_neg valid] at call
        simp [searchBody, call] at h

/-! ## A whole search -/

/-- A search loop before its first iteration. -/
abbrev RomSearch.start (acc : σ) : RomSearch Wire σ := ⟨.new, .idle, acc⟩

/-- Between two iterations there was one reset a code, and the scanner is tidy. -/
theorem goes_tidy {acc : σ} {codes : List RomCode} {s : RomSearch Wire σ}
    (h : Goes (searchBody (wiredAnd sets) onCode onEnd) (.start acc) codes s) :
    s.bus.session = codes.length ∧ (s.scanner.finished = true ∨ Tidy s.scanner) := by
  induction h with
  | start => exact ⟨rfl, Or.inr .new⟩
  | @next codes s s' code before step ih =>
    obtain ⟨session, state⟩ := ih
    obtain ⟨opened, nonempty, next, sc, result, scanner⟩ := searchBody_inr step
    have tidy : Tidy s.scanner := state.resolve_left (by simp [opened])
    refine ⟨by simp [next, session], ?_⟩
    by_cases steady : Steady (sets s.bus.session) s.scanner
    · obtain ⟨sc', code', walked, after⟩ := walk_ok nonempty tidy steady
      rw [result] at walked
      cases walked
      rw [scanner, RomCodeScanner.conclude]
      split
      · exact Or.inl rfl
      · exact Or.inr (after.resolve_left ‹_›)
    · rw [walk_fault nonempty tidy steady] at result
      cases result

/-- The next call goes back to a conflict that its devices have on the last code's
path, past clear bits only, and that the last code took the clear side of. -/
def Retraces (D : Finset RomCode) (codes : List RomCode) (sc : RomCodeScanner) : Prop :=
  ∃ last ∈ codes.getLast?, ∃ c, Retraceable D last sc c ∧ last.bit c = false

/-- What every call of a search finds, if it is made on an open search and there
are devices to answer it. -/
def EveryCall (sets : Nat → Finset RomCode) (body : RomSearch Wire σ → (Outcome × σ) ⊕ (RomCode × RomSearch Wire σ))
    (acc : σ) (P : Finset RomCode → List RomCode → RomCodeScanner → Prop) : Prop :=
  ∀ codes s, Goes body (.start acc) codes s → s.scanner.finished = false → (sets codes.length).Nonempty →
    P (sets codes.length) codes s.scanner

/-- Every call after the first retraces. -/
def Retracked (sets : Nat → Finset RomCode)
    (body : RomSearch Wire σ → (Outcome × σ) ⊕ (RomCode × RomSearch Wire σ)) (acc : σ) : Prop :=
  EveryCall sets body acc (fun D codes sc => codes ≠ [] → Retraces D codes sc)

/-- The loop leaves with a status. -/
def Returns (body : RomSearch Wire σ → (Outcome × σ) ⊕ (RomCode × RomSearch Wire σ)) (acc : σ) : Prop :=
  ∃ code acc', Leaves body (.start acc) (.ret code, acc')

/-- The rank of the last code. -/
def lastRank (codes : List RomCode) : Nat := (codes.getLast?.map (rank RomCode.bit RomCode.width)).getD 0

/-- A call that retraces and goes on yields a code of higher rank. -/
theorem lastRank_lt {codes : List RomCode} {s s' : RomSearch Wire σ} {code : RomCode} (tidy : Tidy s.scanner)
    (retraces : Retraces (sets s.bus.session) codes s.scanner)
    (step : searchBody (wiredAnd sets) onCode onEnd s = .inr (code, s')) :
    lastRank codes < lastRank (codes ++ [code]) := by
  obtain ⟨last, final, c, back, clear⟩ := retraces
  obtain ⟨_, _, _, sc, result, _⟩ := searchBody_inr step
  have pending : s.scanner.conflictCount ≠ 0 := tidy.counted (by rw [back.curr]; omega)
  obtain ⟨sc₁, buf₁, walked, path, set, _⟩ := walk_retraced back tidy.ordered pending
  have kept := walk_same walked _ back.bound (Nat.le_refl _) result
  have higher : rank RomCode.bit RomCode.width last < rank RomCode.bit RomCode.width code :=
    (path.trans (kept.mono (Nat.le_succ c))).rank_lt back.bound clear (by rw [← kept c (Nat.lt_succ_self c), set])
  simpa [lastRank, Option.mem_def.mp final] using higher

theorem lastRank_le (codes : List RomCode) : lastRank codes ≤ 2 ^ RomCode.width := by
  unfold lastRank
  cases codes.getLast? with
  | none => exact Nat.zero_le _
  | some d => exact Nat.le_of_lt (rank_lt _ _)

/-- The first call has nothing to follow, and a later one that retraces follows what is set. -/
theorem Retracked.steady {acc : σ} (h : Retracked sets (searchBody (wiredAnd sets) onCode onEnd) acc) :
    EveryCall sets (searchBody (wiredAnd sets) onCode onEnd) acc (fun D _ sc => Steady D sc) := by
  intro codes s goes opened nonempty
  by_cases first : codes = []
  · subst first
    obtain rfl : s = .start acc := goes.nil
    exact .new _
  · obtain ⟨last, _, c, back, _⟩ := h codes s goes opened nonempty first
    exact back.steady

theorem returns_of_retracked {acc : σ} (h : Retracked sets (searchBody (wiredAnd sets) onCode onEnd) acc) :
    Returns (searchBody (wiredAnd sets) onCode onEnd) acc := by
  have grows : ∀ codes s code s', Goes (searchBody (wiredAnd sets) onCode onEnd) (.start acc) codes s →
      1 ≤ codes.length → searchBody (wiredAnd sets) onCode onEnd s = .inr (code, s') →
      lastRank codes < lastRank (codes ++ [code]) := by
    intro codes s code s' goes later step
    obtain ⟨session, state⟩ := goes_tidy goes
    obtain ⟨opened, nonempty, _⟩ := searchBody_inr step
    have back := h codes s goes opened (session ▸ nonempty) (List.length_pos_iff.mp later)
    exact lastRank_lt (state.resolve_left (by simp [opened])) (session ▸ back) step
  obtain ⟨⟨outcome, acc'⟩, leaves⟩ := leaves_of_rank 1 _ lastRank lastRank_le grows
  cases outcome with
  | ret code => exact ⟨code, acc', leaves⟩
  | fault f =>
    -- no call trips an assertion
    obtain ⟨codes, s, goes, exit⟩ := leaves.goes
    obtain ⟨session, state⟩ := goes_tidy goes
    obtain ⟨_, opened, nonempty, stops⟩ := searchBody_fault.mp exit
    have steady := h.steady codes s goes opened (session ▸ nonempty)
    obtain ⟨sc, code, result, _⟩ :=
      walk_ok nonempty (state.resolve_left (by simp [opened])) (session ▸ steady)
    rw [result] at stops
    cases stops

/-! ## A call that repeats -/

/-- A loop at a call that has nothing to take, on devices that stay: as long as the body
goes on with the code of the leftmost path, every later iteration is the same. -/
theorem run_repeating {D : Finset RomCode} {m : RomCode} (valid : m.valid = true) (Inv : σ → Prop)
    (goesOn : ∀ acc, Inv acc → ∃ acc', onCode m acc = (none, acc') ∧ Inv acc') :
    ∀ fuel (s : RomSearch Wire σ), (∀ n, s.bus.session ≤ n → sets n = D) → s.scanner.finished = false →
      Repeating D m s.scanner → Inv s.acc → run (searchBody (wiredAnd sets) onCode onEnd) fuel s = none := by
  intro fuel
  induction fuel with
  | zero => intro s _ _ _ _; rfl
  | succ fuel ih =>
    intro s stays opened repeating inv
    have here : sets s.bus.session = D := stays _ (Nat.le_refl _)
    obtain ⟨sc', result, again, finished⟩ := walk_repeating repeating
    obtain ⟨acc', choice, inv'⟩ := goesOn s.acc inv
    obtain ⟨w, session, step⟩ := searchBody_walk sets s (here ▸ ⟨m, repeating.left.member⟩) opened (here ▸ result)
      valid choice
    rw [conclude_of_counted again.counted] at step
    rw [run, step]
    exact ih _ (fun n le => stays n (by rw [session] at le; omega)) (finished.trans opened) again inv'

/-- Some call has nothing to take, and from there on the devices stay; `m` is the code it yields. -/
def Repeats (sets : Nat → Finset RomCode)
    (body : RomSearch Wire σ → (Outcome × σ) ⊕ (RomCode × RomSearch Wire σ)) (acc : σ) (m : RomCode) : Prop :=
  ∃ codes s D, Goes body (.start acc) codes s ∧ (∀ n, codes.length ≤ n → sets n = D) ∧ s.scanner.finished = false ∧
    Repeating D m s.scanner ∧ m.valid = true

theorem Repeats.run_eq_none {acc : σ} {m : RomCode} (h : Repeats sets (searchBody (wiredAnd sets) onCode onEnd) acc m)
    (Inv : σ → Prop) (goesOn : ∀ acc, Inv acc → ∃ acc', onCode m acc = (none, acc') ∧ Inv acc')
    (reached : ∀ codes s, Goes (searchBody (wiredAnd sets) onCode onEnd) (.start acc) codes s →
      Inv s.acc) (fuel : Nat) :
    run (searchBody (wiredAnd sets) onCode onEnd) fuel (.start acc) = none := by
  obtain ⟨codes, s, D, goes, stays, opened, repeating, valid⟩ := h
  obtain ⟨session, _⟩ := goes_tidy goes
  have never : run (searchBody (wiredAnd sets) onCode onEnd) fuel s = none :=
    run_repeating valid Inv goesOn fuel s (session ▸ stays) opened repeating (reached codes s goes)
  rw [← goes.run_add] at never
  cases ends : run (searchBody (wiredAnd sets) onCode onEnd) fuel (.start acc) with
  | none => rfl
  | some r =>
    -- what leaves within `fuel` leaves with more
    have more := steady_run _ fuel (codes.length + fuel) r (Nat.le_add_left _ _) ends
    exact absurd (never.symm.trans more) nofun

/-- A search for a code keeps the configuration until it leaves. -/
theorem goes_configured {configured : RomCode} {codes : List RomCode} {s : RomSearch Wire RomCode}
    (h : Goes (findRomCodeBody (wiredAnd sets)) (.start configured) codes s) : s.acc = configured := by
  induction h with
  | start => rfl
  | @next codes s s' code before step ih =>
    have choice := searchBody_acc step
    split at choice
    · cases choice
    · exact (Prod.mk.inj choice).2.symm.trans ih

/-! ## A bus that stays as it is -/

/-- Between two iterations over a comb: the search is new or over, or it stands at a
conflict of the leftmost path `m`, which the last code has taken the clear side of. -/
inductive Descending (D : Finset RomCode) (m : RomCode) (codes : List RomCode) (sc : RomCodeScanner) : Prop where
  | first (none : codes = []) (new : sc = .new)
  | ended (finished : sc.finished = true)
  | pending (c : Nat) (pending : Pending D m sc c) (last : RomCode) (final : last ∈ codes.getLast?)
      (path : Same c m last) (clear : last.bit c = false)

/-- What a call leaves pending, the code it yields has on its path, with the clear side. -/
theorem descending_of_following {D : Finset RomCode} {m code : RomCode} {n : Nat} {sc : RomCodeScanner}
    (h : Following D m n sc) (left : Leftmost RomCode.bit RomCode.width D m) (path : Same n m code)
    (codes : List RomCode) : Descending D m (codes ++ [code]) sc := by
  cases h with
  | ended _ finished => exact .ended finished
  | more c last pending =>
    refine .pending c pending code (by simp) (path.mono (Nat.le_of_lt last.before)) ?_
    rw [← path c last.before]
    exact left.clear c pending.bound pending.conflict

theorem goes_descending {D : Finset RomCode} {m : RomCode} (left : Leftmost RomCode.bit RomCode.width D m)
    (comb : Comb RomCode.bit RomCode.width D) {acc : σ} {codes : List RomCode} {s : RomSearch Wire σ}
    (h : Goes (searchBody (fixedBus D) onCode onEnd) (.start acc) codes s) : Descending D m codes s.scanner := by
  induction h with
  | start => exact .first rfl rfl
  | @next codes s s' code before step ih =>
    obtain ⟨opened, _, _, sc, result, scanner⟩ := searchBody_inr step
    rw [scanner]
    cases ih with
    | first _ new =>
      rw [new] at result
      obtain ⟨sc', code', walked, first⟩ := walk_first left
      rw [result] at walked
      cases walked
      exact descending_of_following (first.next left result) left first.path codes
    | ended finished => rw [opened] at finished; cases finished
    | pending c pending =>
      obtain ⟨sc', code', walked, path, _, taken⟩ := walk_pending left comb pending
      rw [result] at walked
      cases walked
      exact descending_of_following (pending.next left result taken) left path codes

/-- Over a comb that stays attached every call after the first retraces. -/
theorem retracked_of_comb {D : Finset RomCode} (nonempty : D.Nonempty) (comb : Comb RomCode.bit RomCode.width D)
    (acc : σ) : Retracked (fun _ => D) (searchBody (fixedBus D) onCode onEnd) acc := by
  obtain ⟨m, left⟩ : ∃ m, Leftmost RomCode.bit RomCode.width D m := exists_leftmost nonempty RomCode.width
  intro codes s goes opened _ later
  cases goes_descending left comb goes with
  | first none => exact absurd none later
  | ended finished => rw [opened] at finished; cases finished
  | pending c pending last final path clear => exact ⟨last, final, c, (pending.retraceable left).congr path, clear⟩

end

/-- Over a comb that stays attached both loops leave, whatever the target. -/
theorem romSearches_return_of_comb {D : Finset RomCode} (nonempty : D.Nonempty)
    (comb : Comb RomCode.bit RomCode.width D) {σ : Type} (append : String → σ → Bool × σ) (formatter : σ)
    (configured : RomCode) :
    (∃ r acc, Leaves (scanRomCodesBody (fixedBus D) append) (.start formatter) (.ret r, acc)) ∧
      ∃ r acc, Leaves (findRomCodeBody (fixedBus D)) (.start configured) (.ret r, acc) :=
  ⟨returns_of_retracked (retracked_of_comb nonempty comb _), returns_of_retracked (retracked_of_comb nonempty comb _)⟩

/-- **The search loops leave when every call after the first retraces**, and never do from a
call on that has nothing to take, on devices that stay: whatever follows is
the same code again. -/
theorem romSearches_return (sets : Nat → Finset RomCode) {σ : Type} (append : String → σ → Bool × σ)
    (formatter : σ) (configured : RomCode) :
    ((Retracked sets (scanRomCodesBody (wiredAnd sets) append) formatter →
        ∃ fuel code acc, scanRomCodes (wiredAnd sets) append .idle formatter fuel = some (.ret code, acc)) ∧
      ∀ m, Repeats sets (scanRomCodesBody (wiredAnd sets) append) formatter m →
        (∀ acc, (append (serialNumberToStr m.serialNumber) acc).1 = true) →
        ∀ fuel, scanRomCodes (wiredAnd sets) append .idle formatter fuel = none) ∧
      (Retracked sets (findRomCodeBody (wiredAnd sets)) configured →
        ∃ fuel code acc, findRomCode (wiredAnd sets) .idle configured fuel = some (.ret code, acc)) ∧
      ∀ m, Repeats sets (findRomCodeBody (wiredAnd sets)) configured m → m.serialNumber ≠ configured.serialNumber →
        ∀ fuel, findRomCode (wiredAnd sets) .idle configured fuel = none := by
  refine ⟨⟨fun h => ?_, fun m repeats appends fuel => ?_⟩, fun h => ?_, fun m repeats other fuel => ?_⟩
  · obtain ⟨code, acc, fuel, ends⟩ := returns_of_retracked h
    exact ⟨fuel, code, acc, ends⟩
  · refine repeats.run_eq_none (fun _ => True) (fun acc _ => ?_) (fun _ _ _ => trivial) fuel
    obtain ⟨acc', appended⟩ : ∃ acc', append (serialNumberToStr m.serialNumber) acc = (true, acc') :=
      ⟨_, Prod.ext (appends acc) rfl⟩
    exact ⟨acc', by simp only [appended], trivial⟩
  · obtain ⟨code, acc, fuel, ends⟩ := returns_of_retracked h
    exact ⟨fuel, code, acc, ends⟩
  · refine repeats.run_eq_none (fun acc => acc = configured) ?_ (fun _ _ goes => goes_configured goes) fuel
    rintro acc rfl
    exact ⟨acc, if_neg other, rfl⟩

/-! ## Two and three thermometers -/

/-- The thermometers of which the second one is detached after the first call. -/
def detaching (session : Nat) : Finset RomCode :=
  if session = 0 then {thermometer0, thermometer1} else {thermometer0}

/-- Three thermometers. -/
abbrev threeThermometers : Finset RomCode := {thermometer0, thermometer1, thermometer3}

/-- The scanner after a first call that finds one conflict, at bit 8, and after the second over three thermometers. -/
def scanner1 : RomCodeScanner := ⟨false, 8, 8, 1⟩
def scanner2 : RomCodeScanner := ⟨false, 8, 9, 1⟩

theorem thermometers_valid : thermometer0.valid = true ∧ thermometer1.valid = true := by decide +kernel

/-- With one thermometer left nothing is to be taken, -/
theorem repeating_one : Repeating {thermometer0} thermometer0 scanner1 :=
  ⟨⟨by decide, by decide +kernel⟩, by decide, by decide, by decide +kernel, by decide +kernel⟩

/-- and with three nothing after the second call. -/
theorem repeating_three : Repeating threeThermometers thermometer0 scanner2 :=
  ⟨⟨by decide, by decide +kernel⟩, by decide, by decide, by decide +kernel, by decide +kernel⟩

section
variable {σ : Type} {onCode : RomCode → σ → Option StatusCode × σ} {onEnd : StatusCode → StatusCode} {acc : σ}

theorem repeats_detaching (goesOn : onCode thermometer0 acc = (none, acc)) :
    Repeats detaching (searchBody (wiredAnd detaching) onCode onEnd) acc thermometer0 := by
  have walk₁ : walk {thermometer0, thermometer1} .new RomCode.width = .ok (scanner1, thermometer0) := by decide +kernel
  obtain ⟨w, _, first⟩ : ∃ w : Wire, w.session = 1 ∧
      searchBody (wiredAnd detaching) onCode onEnd (.start acc) = .inr (thermometer0, ⟨scanner1, w, acc⟩) :=
    searchBody_walk detaching (.start acc) ⟨thermometer0, Finset.mem_insert_self _ _⟩ rfl walk₁ thermometers_valid.1
      goesOn
  exact ⟨_, _, {thermometer0}, .next .start first, fun n le => if_neg (Nat.ne_of_gt le), rfl, repeating_one,
    thermometers_valid.1⟩

theorem repeats_three (goesOn : ∀ code ∈ [thermometer0, thermometer1], onCode code acc = (none, acc)) :
    Repeats (fun _ => threeThermometers) (searchBody (fixedBus threeThermometers) onCode onEnd) acc thermometer0 := by
  have walk₁ : walk threeThermometers .new RomCode.width = .ok (scanner1, thermometer0) := by decide +kernel
  have walk₂ : walk threeThermometers scanner1 RomCode.width = .ok (scanner2, thermometer1) := by decide +kernel
  obtain ⟨w₁, _, first⟩ : ∃ w : Wire, w.session = 1 ∧
      searchBody (fixedBus threeThermometers) onCode onEnd (.start acc) = .inr (thermometer0, ⟨scanner1, w, acc⟩) :=
    searchBody_walk (fun _ => threeThermometers) (.start acc) ⟨thermometer0, Finset.mem_insert_self _ _⟩ rfl walk₁
      thermometers_valid.1 (goesOn thermometer0 (by simp))
  obtain ⟨w₂, _, second⟩ : ∃ w : Wire, w.session = w₁.session + 1 ∧
      searchBody (fixedBus threeThermometers) onCode onEnd ⟨scanner1, w₁, acc⟩ =
        .inr (thermometer1, ⟨scanner2, w, acc⟩) :=
    searchBody_walk (fun _ => threeThermometers) ⟨scanner1, w₁, acc⟩ ⟨thermometer0, Finset.mem_insert_self _ _⟩ rfl
      walk₂ thermometers_valid.2 (goesOn thermometer1 (by simp))
  exact ⟨_, _, _, .next (.next .start first) second, fun _ _ => rfl, rfl, repeating_three, thermometers_valid.1⟩

end

/-- Over two thermometers that stay attached both loops leave; if the second one is detached
after the first call, neither ever does. -/
theorem romSearches_return_two :
    ((∃ fuel code acc, scanRomCodes (fixedBus {thermometer0, thermometer1}) (fun _ _ => (true, ())) .idle () fuel =
          some (.ret code, acc)) ∧
        ∃ fuel code acc, findRomCode (fixedBus {thermometer0, thermometer1}) .idle thermometer1 fuel =
          some (.ret code, acc)) ∧
      (∀ fuel, scanRomCodes (wiredAnd detaching) (fun _ _ => (true, ())) .idle () fuel = none) ∧
        ∀ fuel, findRomCode (wiredAnd detaching) .idle thermometer1 fuel = none := by
  have comb : Comb RomCode.bit RomCode.width {thermometer0, thermometer1} := by decide +kernel
  have nonempty : ({thermometer0, thermometer1} : Finset RomCode).Nonempty := ⟨thermometer0, by decide⟩
  obtain ⟨⟨scan, _⟩, find, _⟩ := romSearches_return (fun _ => {thermometer0, thermometer1}) (fun _ _ => (true, ())) ()
    thermometer1
  obtain ⟨⟨_, scan'⟩, _, find'⟩ := romSearches_return detaching (fun _ _ => (true, ())) () thermometer1
  exact ⟨⟨scan (retracked_of_comb nonempty comb _), find (retracked_of_comb nonempty comb _)⟩,
    scan' thermometer0 (repeats_detaching rfl) (fun _ => rfl),
    find' thermometer0 (repeats_detaching (by decide)) (by decide)⟩

/-- With three thermometers attached all the time, neither loop leaves: the scan
appends the first code for ever, and the search for the third is never satisfied. -/
theorem romSearches_three_never_return :
    (∀ fuel, scanRomCodes (fixedBus threeThermometers) (fun _ _ => (true, ())) .idle () fuel = none) ∧
      ∀ fuel, findRomCode (fixedBus threeThermometers) .idle thermometer3 fuel = none :=
  ⟨(repeats_three (fun _ _ => rfl)).run_eq_none (fun _ => True) (fun acc _ => ⟨acc, rfl, trivial⟩)
    (fun _ _ _ => trivial),
    (repeats_three (by decide)).run_eq_none (fun acc => acc = thermometer3)
      (fun acc same => ⟨acc, by subst same; decide, same⟩) (fun _ _ goes => goes_configured goes)⟩

/-- There are other ways out: over the full trie of four the fourth call does not retrace, and the
search ends all the same, as the counter is at zero before the last device is found. -/
example :
    scanCalls (fixedBus (insert (thermometer 2 0x70) threeThermometers)) 5 .new .idle =
      [(.ret .ok, thermometer0), (.ret .ok, thermometer 2 0x70), (.ret .ok, thermometer1),
        (.ret .ok, thermometer 2 0x70), (.ret .noData, .new)] := by
  decide +kernel

end OcsComponents.Pipeline
