import OcsComponents.OneWire.ByteTransfer
import OcsComponents.OneWire.Slots

/-!
# Devices that share a line

Any number of devices on one line, each of which hears every slot and may keep the line low. A device with
a ROM code listens for a command after a reset. `MatchRom` and its own code hand the slots that
follow to what the device does when it is addressed; in a `SearchRom` it takes part as long as its code
is the one that is followed; anything else makes it wait for the next reset. So after `RomCode::match` only
the addressed device takes part, and a search finds what it finds on the bus of the ROM codes.
-/

namespace OcsComponents.OneWire
open Status Transition

variable {σ : Type}

namespace Slave

/-- Devices of one kind on one line, which is low when any of them keeps it low. -/
def wired (D : Slave σ) : Slave (List σ) where
  reset ds := (ds.any fun d => (D.reset d).1, ds.map fun d => (D.reset d).2)
  slot level ds := (ds.any fun d => (D.slot level d).1, ds.map fun d => (D.slot level d).2)

/-- What slots of these levels leave. -/
def slots (D : Slave σ) (s : σ) (levels : List Bool) : σ := levels.foldl (fun s level => (D.slot level s).2) s

theorem writeSlots_eq (D : Slave σ) (levels : List Bool) (s : σ) :
    D.bus.writeSlots levels s = (.ok, D.slots s levels) := by
  induction levels generalizing s with
  | nil => rfl
  | cons level levels ih => exact ih (D.slot level s).2

/-- Devices hear the same slots, each for itself. -/
theorem wired_slots (D : Slave σ) (ds : List σ) (levels : List Bool) :
    D.wired.slots ds levels = ds.map fun d => D.slots d levels := by
  induction levels generalizing ds with
  | nil => exact (List.map_id ds).symm
  | cons level levels ih =>
    show D.wired.slots (ds.map _) levels = _
    rw [ih, List.map_map]
    rfl

end Slave

/-- What a device with a ROM code does with the next slot. -/
inductive Listening where
  | idle
  | command (bits : List Bool)
  | matching (n : Nat)
  | bit (n : Nat)
  | complement (n : Nat)
  | select (n : Nat)
  | selected
  deriving DecidableEq, Repr

/-- A device with a ROM code, and what it is when it is addressed. -/
structure Addressed (σ : Type) where
  romCode : RomCode
  listening : Listening
  state : σ

/-- The bits of `RomCode::Command::MatchRom`, `0x55`, in wire order. -/
def matchRom : List Bool := [true, false, true, false, true, false, true, false]

/-- What a command makes a device listen to. -/
def Listening.obey (bits : List Bool) : Listening :=
  if bits = matchRom then .matching 0 else if bits = searchRom then .bit 0 else .idle

/-- Bit `n` of the ROM code was the right one, or not. -/
def Addressed.follow (F : Slave σ) (d : Addressed σ) (right : Bool) (n : Nat) (next : Listening) : Addressed σ :=
  if right = false then { d with listening := .idle }
  else if n + 1 < RomCode.width then { d with listening := next }
  else { d with listening := .selected, state := (F.reset d.state).2 }

/-- `F` behind a ROM code. It begins anew when it is selected. -/
def Slave.addressed (F : Slave σ) : Slave (Addressed σ) where
  reset d := (true, { d with listening := .command [] })
  slot level d :=
    match d.listening with
    | .idle => (false, d)
    | .command bits =>
      if bits.length < 7 then (false, { d with listening := .command (bits ++ [level]) })
      else (false, { d with listening := .obey (bits ++ [level]) })
    | .matching n => (false, d.follow F (d.romCode.bit n == level) n (.matching (n + 1)))
    | .bit n => (!d.romCode.bit n, { d with listening := .complement n })
    | .complement n => (d.romCode.bit n, { d with listening := .select n })
    | .select n => (false, d.follow F (d.romCode.bit n == level) n (.bit (n + 1)))
    | .selected => ((F.slot level d.state).1, { d with state := (F.slot level d.state).2 })

namespace Addressed
variable {F : Slave σ} {d : Addressed σ}

def select (F : Slave σ) (d : Addressed σ) : Addressed σ :=
    { d with listening := .selected, state := (F.reset d.state).2 }

def ignore (d : Addressed σ) : Addressed σ := { d with listening := .idle }

theorem slots_idle (d : Addressed σ) (levels : List Bool) : F.addressed.slots d.ignore levels = d.ignore := by
  induction levels with
  | nil => rfl
  | cons level levels ih => exact ih

/-- The slots after the selection are those of the device. -/
theorem slots_selected (c : RomCode) (s : σ) (levels : List Bool) :
    F.addressed.slots ⟨c, .selected, s⟩ levels = ⟨c, .selected, F.slots s levels⟩ := by
  induction levels generalizing s with
  | nil => rfl
  | cons level levels ih => exact ih (F.slot level s).2

theorem slot_matching (level : Bool) (n : Nat) (d : Addressed σ) :
    (F.addressed.slot level { d with listening := .matching n }).2 =
      if d.romCode.bit n ≠ level then d.ignore
      else if n + 1 < RomCode.width then { d with listening := .matching (n + 1) } else d.select F := by
  show (Addressed.follow F { d with listening := .matching n } (d.romCode.bit n == level) n (.matching (n + 1))) = _
  unfold Addressed.follow
  by_cases same : d.romCode.bit n = level
  · rw [if_neg (by simp [same]), if_neg (not_not_intro same)]
    rfl
  · rw [if_pos (by simp [same]), if_pos same]
    rfl

/-- The last `k + 1` bits of a code: a device with the same ones is selected. -/
theorem slots_matching (c : RomCode) (d : Addressed σ) (k n : Nat) (due : n + k + 1 = RomCode.width) :
    F.addressed.slots { d with listening := .matching n } ((List.range' n (k + 1)).map c.bit) =
      if ∀ m, n ≤ m → m < RomCode.width → d.romCode.bit m = c.bit m then d.select F else d.ignore := by
  induction k generalizing n with
  | zero =>
    show (F.addressed.slot (c.bit n) { d with listening := .matching n }).2 = _
    rw [slot_matching]
    by_cases same : d.romCode.bit n = c.bit n
    · rw [if_neg (not_not_intro same), if_neg (by omega), if_pos]
      · intro m least most
        obtain rfl : m = n := by omega
        exact same
    · rw [if_pos same, if_neg fun all => same (all n (Nat.le_refl n) (by omega))]
  | succ k ih =>
    show F.addressed.slots (F.addressed.slot (c.bit n) { d with listening := .matching n }).2
      ((List.range' (n + 1) (k + 1)).map c.bit) = _
    rw [slot_matching]
    by_cases same : d.romCode.bit n = c.bit n
    · rw [if_neg (not_not_intro same), if_pos (by omega), ih (n + 1) (by omega)]
      have rest : (∀ m, n + 1 ≤ m → m < RomCode.width → d.romCode.bit m = c.bit m) ↔
          ∀ m, n ≤ m → m < RomCode.width → d.romCode.bit m = c.bit m := by
        constructor
        · intro all m least most
          by_cases first : m = n
          · rw [first, same]
          · exact all m (by omega) most
        · exact fun all m least most => all m (Nat.le_of_succ_le least) most
      exact if_congr rest rfl rfl
    · rw [if_pos same, if_neg fun all => same (all n (Nat.le_refl n) (by omega))]
      exact slots_idle d _

/-- The bytes of a code are its 64 bits. -/
theorem wireBits_romCode (c : RomCode) : wireBits c.bytes.toList = (List.range' 0 RomCode.width).map c.bit := by
  apply List.ext_getElem?
  intro i
  have place : 8 * (i / 8) + i % 8 = i := Nat.div_add_mod i 8
  have bit := wireBits_getElem? c.bytes.toList (i / 8) (Nat.mod_lt i (by decide : 0 < 8))
  rw [place] at bit
  rw [bit, List.getElem?_map]
  by_cases inside : i < 64
  · have byte : i / 8 < 8 := by omega
    rw [List.getElem?_range' inside]
    simp [RomCode.bit_eq, byte]
  · have past : c.bytes.toList.length ≤ i / 8 := by rw [Vector.length_toList]; omega
    rw [List.getElem?_eq_none past, List.getElem?_eq_none (by rw [List.length_range']; exact Nat.not_lt.mp inside)]
    rfl

/-- **A code selects its device**, and everybody else waits for the next reset. -/
theorem slots_match (c : RomCode) (d : Addressed σ) :
    F.addressed.slots (F.addressed.reset d).2 (matchRom ++ wireBits c.bytes.toList) =
      if d.romCode = c then d.select F else d.ignore := by
  have command : F.addressed.slots (F.addressed.reset d).2 matchRom = { d with listening := .matching 0 } := rfl
  have all : (∀ m, 0 ≤ m → m < RomCode.width → d.romCode.bit m = c.bit m) ↔ d.romCode = c :=
    ⟨fun same => RomCode.ext_bits fun m most => same m (Nat.zero_le m) most, fun same _ _ _ => by rw [same]⟩
  rw [Slave.slots, List.foldl_append, ← Slave.slots, ← Slave.slots, command, wireBits_romCode,
    slots_matching c d 63 0 rfl]
  exact if_congr all rfl rfl

end Addressed

/-! ## A line with addressed devices -/

section
variable {F : Slave σ} {c : RomCode} {ds : List (Addressed σ)} {g g' : Addressed σ → σ}

/-- The devices with the code are selected, in these states; the others wait for the next reset. -/
def chosen (c : RomCode) (g : Addressed σ → σ) (ds : List (Addressed σ)) : List (Addressed σ) :=
  ds.map fun d => if d.romCode = c then ⟨d.romCode, .selected, g d⟩ else d.ignore

theorem chosen_romCode : (chosen c g ds).map (·.romCode) = ds.map (·.romCode) := by
  rw [chosen, List.map_map]
  apply List.map_congr_left
  intro d _
  rw [Function.comp_apply]
  split
  · rfl
  · rfl

/-- Of two selections the last one counts. -/
theorem chosen_chosen (h : Addressed σ → σ) :
    chosen c h (chosen c g ds) = chosen c (fun d => h ⟨d.romCode, .selected, g d⟩) ds := by
  rw [chosen, chosen, List.map_map]
  apply List.map_congr_left
  intro d _
  rw [Function.comp_apply]
  by_cases here : d.romCode = c
  · simp only [if_pos here]
  · simp only [if_neg here, Addressed.ignore]

/-- `RomCode::match` on this line. -/
theorem matchOn_wired (F : Slave σ) (c : RomCode) (ds : List (Addressed σ)) (some : ds ≠ []) :
    c.matchOn F.addressed.wired.bus ds = (.ok, chosen c (fun d => (F.reset d.state).2) ds) := by
  have present : F.addressed.wired.bus.reset ds = (.ok, ds.map fun d => (F.addressed.reset d).2) := by
    obtain ⟨d, ds, rfl⟩ := List.exists_cons_of_ne_nil some
    rfl
  have nonempty : c.bytes.toList ≠ [] := List.ne_nil_of_length_pos (by rw [Vector.length_toList]; decide)
  rw [RomCode.matchOn, present, returnOnError_ok, Bus.writeByte, Bus.writeBits_slots, Slave.writeSlots_eq,
    returnOnError_ok,
    Bus.writeBytes_slots _ nonempty, Slave.writeSlots_eq, Slave.wired_slots, Slave.wired_slots, List.map_map,
      List.map_map]
  congr 1
  apply List.map_congr_left
  intro d _
  have both := Addressed.slots_match (F := F) c d
  rw [Slave.slots, List.foldl_append] at both
  exact both

/-- Slots are for the chosen devices. -/
theorem writeSlots_chosen (levels : List Bool) :
    F.addressed.wired.bus.writeSlots levels (chosen c g ds) = (.ok, chosen c (fun d => F.slots (g d) levels) ds) := by
  rw [Slave.writeSlots_eq, Slave.wired_slots, chosen, List.map_map]
  congr 1
  apply List.map_congr_left
  intro d _
  rw [Function.comp_apply]
  split
  · exact Addressed.slots_selected _ _ levels
  · exact Addressed.slots_idle d levels

/-- A read slot: who is not chosen lets the line up. -/
theorem readBit_chosen : F.addressed.wired.bus.readBit (chosen c g ds) =
    ((.ok, !ds.any fun d => decide (d.romCode = c) && (F.slot true (g d)).1),
      chosen c (fun d => (F.slot true (g d)).2) ds) := by
  have low : (chosen c g ds).any (fun d => (F.addressed.slot true d).1) =
      ds.any fun d => decide (d.romCode = c) && (F.slot true (g d)).1 := by
    rw [chosen, List.any_map]
    congr 1
    funext d
    by_cases here : d.romCode = c
    · rw [Function.comp_apply, if_pos here, decide_eq_true here, Bool.true_and]
      rfl
    · rw [Function.comp_apply, if_neg here, decide_eq_false here, Bool.false_and]
      rfl
  have state : (chosen c g ds).map (fun d => (F.addressed.slot true d).2) =
    chosen c (fun d => (F.slot true (g d)).2) ds := by
    rw [chosen, List.map_map]
    apply List.map_congr_left
    intro d _
    rw [Function.comp_apply]
    split
    · rfl
    · rfl
  show ((StatusCode.ok, !(chosen c g ds).any _), (chosen c g ds).map _) = _
  rw [low, state]

/-- What the chosen device sends is read, and ones when there is none. -/
theorem reads_chosen {bits : List Bool} (sends : ∀ d ∈ ds, d.romCode = c → F.bus.Reads (g d) bits (g' d))
    (nobody : (∀ d ∈ ds, d.romCode ≠ c) → ∀ bit ∈ bits, bit = true) :
    F.addressed.wired.bus.Reads (chosen c g ds) bits (chosen c g' ds) := by
  induction bits generalizing g with
  | nil =>
    have same : chosen c g ds = chosen c g' ds := by
      apply List.map_congr_left
      intro d member
      split
      · next here =>
        rcases (sends d member here).first with ⟨_, ended⟩ | ⟨_, _, _, none, _⟩
        · rw [ended]
        · cases none
      · rfl
    rw [same]
    exact .start
  | cons bit bits ih =>
    have first : ∀ d ∈ ds, d.romCode = c → (!(F.slot true (g d)).1) = bit ∧
        F.bus.Reads (F.slot true (g d)).2 bits (g' d) := by
      intro d member here
      obtain ⟨s, slot, rest⟩ := (sends d member here).uncons
      obtain ⟨read, rfl⟩ := Prod.mk.inj slot
      exact ⟨(Prod.mk.inj read).2, rest⟩
    refine (ih (fun d member here => (first d member here).2) fun none b member =>
      nobody none b (List.mem_cons_of_mem _ member)).cons ?_
    rw [readBit_chosen]
    have level : (!ds.any fun d => decide (d.romCode = c) && (F.slot true (g d)).1) = bit := by
      by_cases none : ∀ d ∈ ds, d.romCode ≠ c
      · rw [nobody none bit List.mem_cons_self, Bool.not_eq_true', List.any_eq_false]
        intro d member
        simp [none d member]
      · obtain ⟨d, member, here⟩ : ∃ d ∈ ds, d.romCode = c := by simpa using none
        have low : ∀ d ∈ ds, d.romCode = c → (F.slot true (g d)).1 = !bit := fun d member here => by
          rw [← (first d member here).1, Bool.not_not]
        cases bit with
        | true =>
          rw [Bool.not_eq_true', List.any_eq_false]
          intro d member
          rw [Bool.and_eq_true, decide_eq_true_eq, not_and]
          intro here
          rw [low d member here]
          exact Bool.false_ne_true
        | false =>
          rw [Bool.not_eq_false', List.any_eq_true]
          exact ⟨d, member, by rw [decide_eq_true here, low d member here]; rfl⟩
    rw [level]

end

/-! ## Searching -/

section
variable {τ : Type} {F : Slave σ} {view : σ → τ} {base : List (RomCode × τ)} {ds : List (Addressed σ)} {w : Wire}

/-- The ROM codes of the devices, and what is seen of them. -/
def seen (view : σ → τ) (ds : List (Addressed σ)) : List (RomCode × τ) := ds.map fun d => (d.romCode, view d.state)

/-- The ROM codes. -/
def codes (base : List (RomCode × τ)) : Finset RomCode := (base.map Prod.fst).toFinset

/-- What the bus of the ROM codes expects a device to listen to. -/
def Wire.Listens (w : Wire) (d : Addressed σ) : Prop :=
  match w.phase with
  | .command bits => d.romCode ∈ w.selected ∧ d.listening = .command bits
  | .bit n => d.listening = if d.romCode ∈ w.selected then .bit n else .idle
  | .complement n => d.listening = if d.romCode ∈ w.selected then .complement n else .idle
  | .select n => d.listening = if d.romCode ∈ w.selected then .select n else .idle
  | .silent => True

/-- The devices are where the bus of their ROM codes is, and otherwise as they were. -/
structure Searched (view : σ → τ) (base : List (RomCode × τ)) (ds : List (Addressed σ)) (w : Wire) : Prop where
  views : seen view ds = base
  listens : ∀ d ∈ ds, w.Listens d
  present : ∀ c ∈ w.selected, ∃ d ∈ ds, d.romCode = c

theorem mem_codes (same : seen view ds = base) {c : RomCode} : c ∈ codes base ↔ ∃ d ∈ ds, d.romCode = c := by
  subst same
  simp [codes, seen]

/-- Until it is selected, a slot leaves a device as it was. -/
theorem slot_view (keeps : ∀ s, view (F.reset s).2 = view s) (level : Bool) {d : Addressed σ}
    (other : d.listening ≠ .selected) : (F.addressed.slot level d).2.romCode = d.romCode ∧
      view (F.addressed.slot level d).2.state = view d.state := by
  have follow : ∀ right n next, (d.follow F right n next).romCode = d.romCode ∧
      view (d.follow F right n next).state = view d.state := by
    intro right n next
    unfold Addressed.follow
    split
    · exact ⟨rfl, rfl⟩
    · split
      · exact ⟨rfl, rfl⟩
      · exact ⟨rfl, keeps _⟩
  simp only [Slave.addressed]
  split
  · exact ⟨rfl, rfl⟩
  · split
    · exact ⟨rfl, rfl⟩
    · exact ⟨rfl, rfl⟩
  · exact follow _ _ _
  · exact ⟨rfl, rfl⟩
  · exact ⟨rfl, rfl⟩
  · exact follow _ _ _
  · next selected => exact absurd selected other

/-- A slot in a search, when every device goes where the bus goes. -/
theorem Searched.slot (keeps : ∀ s, view (F.reset s).2 = view s) (level : Bool) {w' : Wire}
    (h : Searched view base ds w)
    (on : w.phase ≠ .silent) (fewer : w'.selected ⊆ w.selected)
    (goes : ∀ d, w.Listens d → w'.Listens (F.addressed.slot level d).2) :
    Searched view base (F.addressed.wired.slot level ds).2 w' := by
  have other : ∀ d ∈ ds, d.listening ≠ .selected := by
    intro d member selected
    have listens := h.listens d member
    unfold Wire.Listens at listens
    rw [selected] at listens
    cases phase : w.phase with
    | silent => exact on phase
    | command bits =>
      rw [phase] at listens
      cases listens.2
    | bit n | complement n | select n =>
      rw [phase] at listens
      dsimp only at listens
      split at listens <;> cases listens
  refine ⟨?_, ?_, ?_⟩
  · rw [← h.views, seen, seen]
    show (ds.map _).map _ = _
    rw [List.map_map]
    apply List.map_congr_left
    intro d member
    obtain ⟨code, same⟩ := slot_view keeps level (other d member)
    exact Prod.ext code same
  · intro d member
    obtain ⟨d', member', rfl⟩ := List.mem_map.mp member
    exact goes d' (h.listens d' member')
  · intro c member
    obtain ⟨d, inside, rfl⟩ := h.present c (fewer member)
    exact ⟨_, List.mem_map_of_mem inside, (slot_view keeps level (other d inside)).1⟩

/-- A device in a search sends its bit, and then the complement. -/
theorem slot_sent {d : Addressed σ} {n : Nat} (listens : w.Listens d) :
    (w.phase = .bit n → (F.addressed.slot true d).1 = (decide (d.romCode ∈ w.selected) && !d.romCode.bit n) ∧
      Wire.Listens { w with phase := .complement n } (F.addressed.slot true d).2) ∧
    (w.phase = .complement n → (F.addressed.slot true d).1 = (decide (d.romCode ∈ w.selected) && d.romCode.bit n) ∧
      Wire.Listens { w with phase := .select n } (F.addressed.slot true d).2) := by
  obtain ⟨romCode, listening, state⟩ := d
  constructor
  · intro phase
    simp only [Wire.Listens, phase] at listens
    by_cases here : romCode ∈ w.selected
    · rw [if_pos here] at listens
      subst listens
      simp [Slave.addressed, Wire.Listens, here]
    · rw [if_neg here] at listens
      subst listens
      simp [Slave.addressed, Wire.Listens, here]
  · intro phase
    simp only [Wire.Listens, phase] at listens
    by_cases here : romCode ∈ w.selected
    · rw [if_pos here] at listens
      subst listens
      simp [Slave.addressed, Wire.Listens, here]
    · rw [if_neg here] at listens
      subst listens
      simp [Slave.addressed, Wire.Listens, here]

/-- A device in a search hears a bit of the command, or the side that is followed. -/
theorem slot_heard {d : Addressed σ} (level : Bool) (listens : w.Listens d) (hears : w.Hears) :
    (w.writeBit level).2.Listens (F.addressed.slot level d).2 := by
  obtain ⟨romCode, listening, state⟩ := d
  rcases hears with ⟨bits, phase⟩ | ⟨n, phase⟩
  · simp only [Wire.Listens, phase] at listens
    obtain ⟨here, rfl⟩ := listens
    simp only [Wire.writeBit, phase, Slave.addressed]
    split
    · exact ⟨here, rfl⟩
    · -- the wire goes on with a search only
      by_cases search : bits ++ [level] = searchRom
      · rw [search, if_pos rfl]
        simp only [Wire.Listens, here, if_true]
        rfl
      · rw [if_neg search]
        trivial
  · simp only [Wire.Listens, phase] at listens
    simp only [Wire.writeBit, phase]
    by_cases here : romCode ∈ w.selected
    · rw [if_pos here] at listens
      subst listens
      simp only [Slave.addressed, Addressed.follow]
      by_cases side : romCode.bit n = level
      · by_cases more : n + 1 < RomCode.width
        · simp [Wire.Listens, side, more, here]
        · simp [Wire.Listens, more]
      · by_cases more : n + 1 < RomCode.width
        · simp [Wire.Listens, side, more]
        · simp [Wire.Listens, more]
    · rw [if_neg here] at listens
      subst listens
      by_cases more : n + 1 < RomCode.width
      · simp [Slave.addressed, Wire.Listens, more, here]
      · simp [Wire.Listens, more]

/-- A read slot is low when a selected device keeps it low. -/
theorem Searched.read_eq (low : RomCode → Bool) (h : Searched view base ds w)
    (sends : ∀ d ∈ ds, (F.addressed.slot true d).1 = (decide (d.romCode ∈ w.selected) && low d.romCode)) :
    (F.addressed.wired.bus.readBit ds).1 = (.ok, decide (∀ c ∈ w.selected, low c = false)) := by
  show (StatusCode.ok, !ds.any fun d => (F.addressed.slot true d).1) = _
  congr 1
  rw [Bool.eq_iff_iff, Bool.not_eq_true', List.any_eq_false, decide_eq_true_eq]
  constructor
  · intro up c member
    obtain ⟨d, inside, rfl⟩ := h.present c member
    have up := up d inside
    rw [sends d inside, decide_eq_true member, Bool.true_and, Bool.not_eq_true] at up
    exact up
  · intro up d inside
    rw [sends d inside]
    by_cases member : d.romCode ∈ w.selected
    · rw [up d.romCode member, Bool.and_false]
      exact Bool.false_ne_true
    · rw [decide_eq_false member, Bool.false_and]
      exact Bool.false_ne_true

/-- **A search finds the ROM codes**: it leaves the devices on the line as they were and hears from them
what the bus of their ROM codes answers. -/
theorem addressed_attached (F : Slave σ) (keeps : ∀ s, view (F.reset s).2 = view s) (base : List (RomCode × τ)) :
    Attached F.addressed.wired.bus (fun _ => codes base) (Searched view base) where
  reset := by
    intro ds w h
    have some : (ds.any fun _ => true) = true ↔ (codes base).Nonempty := by
      rw [List.any_eq_true]
      constructor
      · exact fun ⟨d, member, _⟩ => ⟨d.romCode, (mem_codes h.views).mpr ⟨d, member, rfl⟩⟩
      · intro ⟨c, member⟩
        obtain ⟨d, inside, _⟩ := (mem_codes h.views).mp member
        exact ⟨d, inside, rfl⟩
    refine ⟨if_congr some rfl rfl, ?_, ?_, ?_⟩
    · rw [← h.views, seen, seen]
      exact List.map_map
    · intro d member
      obtain ⟨d', inside, rfl⟩ := List.mem_map.mp member
      exact ⟨(mem_codes h.views).mpr ⟨d', inside, rfl⟩, rfl⟩
    · intro c member
      obtain ⟨d, inside, rfl⟩ := (mem_codes h.views).mp member
      exact ⟨_, List.mem_map_of_mem inside, rfl⟩
  readBit := by
    intro ds w h sends
    rcases sends with ⟨n, phase⟩ | ⟨n, phase⟩
    · have wire : (wiredAnd fun _ => codes base).readBit w =
          ((.ok, decide (∀ d ∈ w.selected, d.bit n = true)), { w with phase := .complement n }) := by
        simp only [wiredAnd, Wire.readBit, phase]
      rw [wire]
      refine ⟨?_, h.slot keeps true (by simp [phase]) subset_rfl fun d listens => ((slot_sent listens).1 phase).2⟩
      rw [h.read_eq (fun c => !c.bit n) fun d member => ((slot_sent (h.listens d member)).1 phase).1]
      simp only [Bool.not_eq_false']
    · have wire : (wiredAnd fun _ => codes base).readBit w =
          ((.ok, decide (∀ d ∈ w.selected, d.bit n = false)), { w with phase := .select n }) := by
        simp only [wiredAnd, Wire.readBit, phase]
      rw [wire]
      refine ⟨?_, h.slot keeps true (by simp [phase]) subset_rfl fun d listens => ((slot_sent listens).2 phase).2⟩
      exact h.read_eq (fun c => c.bit n) fun d member => ((slot_sent (h.listens d member)).2 phase).1
  writeBit := by
    intro ds w bit h hears
    have on : w.phase ≠ .silent := by
      rcases hears with ⟨bits, phase⟩ | ⟨n, phase⟩
      · simp [phase]
      · simp [phase]
    have told : ((wiredAnd fun _ => codes base).writeBit bit w).1 = .ok ∧
        ((wiredAnd fun _ => codes base).writeBit bit w).2.selected ⊆ w.selected := by
      simp only [wiredAnd, Wire.writeBit]
      split
      · split
        · exact ⟨rfl, subset_rfl⟩
        · exact ⟨rfl, subset_rfl⟩
      · exact ⟨rfl, Finset.filter_subset _ _⟩
      · exact ⟨rfl, subset_rfl⟩
    exact ⟨told.1.symm, h.slot keeps bit on told.2 fun d listens => slot_heard bit listens hears⟩

end

end OcsComponents.OneWire
