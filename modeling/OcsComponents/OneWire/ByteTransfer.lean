import OcsComponents.Lib.Transition
import OcsComponents.OneWire.Bus

/-!
# Bytes on the bus

A byte crosses the bus in eight slots, its least significant bit first, and a list of bytes
crosses it byte after byte (`wireBits`). `write_bytes` is one write slot a bit of this
sequence (`writeBytes_slots`). `read_bytes` puts the bits of its read slots over whatever
the buffer held (`readLast_ok`), so what was written is read back. Both stop at the first
slot that fails.
-/

namespace OcsComponents.OneWire
open Status Algo Transition

/-- The lowest `n` bits, least significant first. -/
def lowBits (n : Nat) (byte : BitVec 8) : List Bool := (List.range n).map byte.getLsbD

/-- The bits of the bytes in the order they cross the bus in. -/
def wireBits (bs : List (BitVec 8)) : List Bool := bs.flatMap (lowBits 8)

theorem lowBits_succ (n : Nat) (byte : BitVec 8) : lowBits (n + 1) byte = byte.getLsbD 0 :: lowBits n (byte >>> 1) := by
  unfold lowBits
  rw [List.range_succ_eq_map, List.map_cons, List.map_map]
  congr 1
  apply List.map_congr_left
  intro i _
  rw [Function.comp_apply, BitVec.getLsbD_ushiftRight, Nat.succ_eq_one_add]

@[simp] theorem lowBits_length (n : Nat) (byte : BitVec 8) : (lowBits n byte).length = n := by
  simp [lowBits]

theorem lowBits_getElem? (byte : BitVec 8) {n i : Nat} (h : i < n) : (lowBits n byte)[i]? = some (byte.getLsbD i) := by
  simp [lowBits, h]

theorem wireBits_cons (b : BitVec 8) (bs : List (BitVec 8)) : wireBits (b :: bs) = lowBits 8 b ++ wireBits bs := rfl

@[simp] theorem wireBits_length (bs : List (BitVec 8)) : (wireBits bs).length = 8 * bs.length := by
  induction bs with
  | nil => rfl
  | cons b bs ih =>
    rw [wireBits_cons, List.length_append, lowBits_length, ih, List.length_cons]
    omega

/-- The bit of the slot. -/
theorem wireBits_getElem? (bs : List (BitVec 8)) (i : Nat) {n : Nat} (h : n < 8) :
    (wireBits bs)[8 * i + n]? = bs[i]?.map fun b => b.getLsbD n := by
  induction bs generalizing i with
  | nil => rfl
  | cons b bs ih =>
    rw [wireBits_cons]
    cases i with
    | zero =>
      rw [List.getElem?_append_left (by simpa using h), Nat.mul_zero, Nat.zero_add, lowBits_getElem? b h]
      rfl
    | succ i =>
      have past : 8 * (i + 1) + n - 8 = 8 * i + n := by omega
      rw [List.getElem?_append_right (by rw [lowBits_length]; omega), lowBits_length, past, ih]
      rfl

namespace Bus
variable {β : Type} (B : Bus β)

/-- The write slots of these bits come through one after another. -/
abbrev Writes (s : β) (bits : List Bool) (s' : β) : Prop :=
  Run (fun s bit s' => B.writeBit bit s = (.ok, s')) s bits s'

/-- The read slots return these bits one after another. -/
abbrev Reads (s : β) (bits : List Bool) (s' : β) : Prop :=
  Run (fun s bit s' => B.readBit s = ((.ok, bit), s')) s bits s'

/-! ## Writing -/

/-- A write slot a bit, until one fails. -/
def writeSlots : List Bool → β → StatusCode × β
  | [], s => (.ok, s)
  | bit :: bits, s => returnOnError (B.writeBit bit s) (writeSlots bits)

theorem writeSlots_append (a b : List Bool) (s : β) :
    B.writeSlots (a ++ b) s = returnOnError (B.writeSlots a s) (B.writeSlots b) := by
  induction a generalizing s with
  | nil => rfl
  | cons bit a ih =>
    rw [List.cons_append, writeSlots, writeSlots]
    rcases B.writeBit bit s with ⟨code, s'⟩
    by_cases wrote : code = .ok
    · subst wrote
      exact ih s'
    · rw [returnOnError_fail _ _ wrote, returnOnError_fail _ _ wrote, returnOnError_fail _ _ wrote]

theorem writeBits_slots (n : Nat) (byte : BitVec 8) (s : β) :
    B.writeBits n byte s = B.writeSlots (lowBits n byte) s := by
  induction n generalizing byte s with
  | zero => rfl
  | succ n ih =>
    rw [lowBits_succ, writeBits, writeSlots]
    congr 1
    funext s
    exact ih (byte >>> 1) s

theorem writeList_slots (bs : List (BitVec 8)) (s : β) : B.writeList bs s = B.writeSlots (wireBits bs) s := by
  induction bs generalizing s with
  | nil => rfl
  | cons b bs ih =>
    rw [wireBits_cons, writeSlots_append, writeList, writeByte, writeBits_slots]
    congr 1
    funext s
    exact ih s

/-- **`write_bytes` is its write slots.** -/
theorem writeBytes_slots {bs : List (BitVec 8)} (nonempty : bs ≠ []) (s : β) :
    B.writeBytes bs s = B.writeSlots (wireBits bs) s := by
  rw [writeBytes, if_neg (by simpa using nonempty), writeList_slots]

variable {B}

theorem Writes.slots {s s' : β} {bits : List Bool} (h : B.Writes s bits s') : B.writeSlots bits s = (.ok, s') := by
  induction h with
  | start => rfl
  | next _ last ih =>
    rw [writeSlots_append, ih, returnOnError_ok, writeSlots, last]
    rfl

theorem Writes.fails {s s₁ s' : β} {bits rest : List Bool} {bit : Bool} {code : StatusCode}
    (h : B.Writes s bits s₁) (slot : B.writeBit bit s₁ = (code, s')) (failed : code ≠ .ok) :
    B.writeSlots (bits ++ bit :: rest) s = (code, s') := by
  rw [writeSlots_append, h.slots, returnOnError_ok, writeSlots, slot, returnOnError_fail _ _ failed]

/-! ## Reading -/

theorem setBit_getLsbD (byte : BitVec 8) {n : Nat} (bit : Bool) {i : Nat} (h : i < 8) :
    (setBit byte n bit).getLsbD i = if i = n then bit else byte.getLsbD i := by
  have low : i < 32 := by omega
  unfold setBit
  cases bit with
  | true =>
    rw [if_pos rfl, BitVec.getLsbD_setWidth, BitVec.getLsbD_or, BitVec.getLsbD_setWidth, BitOps.mask_getLsbD,
      decide_eq_true h, decide_eq_true low]
    by_cases same : i = n <;> simp [same]
  | false =>
    rw [if_neg nofun, BitVec.getLsbD_setWidth, BitVec.getLsbD_and, BitVec.getLsbD_setWidth, BitOps.umask_getLsbD,
      decide_eq_true h, decide_eq_true low]
    by_cases same : i = n <;> simp [same]

/-- The slots left of a byte put their bits over what it held. -/
theorem readBits_ok {n : Nat} (byte : BitVec 8) {s s' : β} {bits : List Bool} (h : B.Reads s bits s')
    (length : bits.length = n) (bound : n ≤ 8) : ∃ byte', B.readBits n byte s = (.ok, byte', s') ∧
      ∀ i < 8, byte'.getLsbD i = if i < 8 - n then byte.getLsbD i else bits[i - (8 - n)]?.getD false := by
  induction n generalizing byte s bits with
  | zero =>
    rw [List.length_eq_zero_iff.mp length] at h
    rcases h.first with ⟨-, rfl⟩ | ⟨_, _, _, none, _⟩
    · exact ⟨byte, rfl, fun i low => by rw [if_pos (by omega)]⟩
    · cases none
  | succ n ih =>
    obtain ⟨bit, rest, rfl⟩ := List.exists_cons_of_length_eq_add_one length
    obtain ⟨s₁, slot, h⟩ := h.uncons
    obtain ⟨byte', reads, bitwise⟩ := ih (setBit byte (7 - n) bit) h (by simpa using length) (by omega)
    refine ⟨byte', by rw [readBits, slot]; exact reads, ?_⟩
    intro i low
    rw [bitwise i low, setBit_getLsbD byte bit low]
    by_cases before : i < 8 - (n + 1)
    · rw [if_pos (by omega), if_neg (by omega), if_pos before]
    · rw [if_neg before]
      by_cases here : i = 7 - n
      · have first : i - (8 - (n + 1)) = 0 := by omega
        rw [if_pos (by omega), if_pos here, first]
        rfl
      · have later : i - (8 - (n + 1)) = i - (8 - n) + 1 := by omega
        rw [if_neg (by omega), later, List.getElem?_cons_succ]

theorem readBits_fails {n : Nat} (byte : BitVec 8) {s s₁ s' : β} {bits : List Bool} {code : StatusCode} {bit : Bool}
    (h : B.Reads s bits s₁) (short : bits.length < n) (slot : B.readBit s₁ = ((code, bit), s'))
    (failed : code ≠ .ok) :
    ∃ byte', B.readBits n byte s = (code, byte', s') := by
  induction n generalizing byte s bits with
  | zero => omega
  | succ n ih =>
    rcases h.first with ⟨rfl, rfl⟩ | ⟨bit', rest, s₂, rfl, slot', h⟩
    · refine ⟨byte, ?_⟩
      rw [readBits, slot]
      exact returnOnError_fail _ _ failed
    · obtain ⟨byte', reads⟩ := ih (setBit byte (7 - n) bit') h (by simpa using short)
      exact ⟨byte', by rw [readBits, slot']; exact reads⟩

/-- A byte read by eight slots does not depend on what the variable held. -/
theorem readByte_ok {value : BitVec 8} {s s' : β} (h : B.Reads s (lowBits 8 value) s') (byte : BitVec 8) :
    B.readByte byte s = (.ok, value, s') := by
  obtain ⟨byte', reads, bitwise⟩ := readBits_ok byte h (lowBits_length 8 value) (Nat.le_refl 8)
  have same : byte' = value := by
    apply BitVec.eq_of_getLsbD_eq
    intro i low
    rw [bitwise i low, if_neg (by omega), Nat.sub_self, Nat.sub_zero, lowBits_getElem? value low, Option.getD_some]
  rw [readByte, reads, same]

variable {size : Nat}

/-- A byte put at its place, and the others after it. -/
theorem placed {b : BitVec 8} {bs : List (BitVec 8)} (buf : Vector (BitVec 8) size)
    (fits : bs.length + 1 ≤ size) (i : Nat) :
    (if i < size - bs.length then (buf.setIfInBounds (size - (bs.length + 1)) b)[i]? else bs[i - (size - bs.length)]?) =
      if i < size - (bs.length + 1) then buf[i]? else (b :: bs)[i - (size - (bs.length + 1))]? := by
  by_cases before : i < size - (bs.length + 1)
  · rw [if_pos (by omega), if_pos before, Vector.getElem?_setIfInBounds_ne (by omega)]
  · rw [if_neg before]
    by_cases here : i = size - (bs.length + 1)
    · subst here
      rw [if_pos (by omega), Vector.getElem?_setIfInBounds_self_of_lt (by omega), Nat.sub_self]
      rfl
    · have later : i - (size - (bs.length + 1)) = i - (size - bs.length) + 1 := by omega
      rw [if_neg (by omega), later, List.getElem?_cons_succ]

/-- The bytes left of a buffer, when all their slots come through. -/
theorem readLast_ok {bs : List (BitVec 8)} (buf : Vector (BitVec 8) size) {s s' : β} (h : B.Reads s (wireBits bs) s')
    (fits : bs.length ≤ size) : ∃ buf', B.readLast bs.length buf s = (.ok, buf', s') ∧
      ∀ i, buf'[i]? = if i < size - bs.length then buf[i]? else bs[i - (size - bs.length)]? := by
  induction bs generalizing buf s with
  | nil =>
    rcases h.first with ⟨-, rfl⟩ | ⟨_, _, _, none, _⟩
    · refine ⟨buf, rfl, fun i => ?_⟩
      split
      · rfl
      · next past => exact Vector.getElem?_eq_none (by simpa using past)
    · cases none
  | cons b bs ih =>
    rw [wireBits_cons] at h
    obtain ⟨s₁, first, h⟩ := h.split
    obtain ⟨buf', reads, bytewise⟩ := ih (buf.setIfInBounds (size - (bs.length + 1)) b) h (Nat.le_of_succ_le fits)
    refine ⟨buf', ?_, fun i => by rw [bytewise, placed buf fits, List.length_cons]⟩
    rw [List.length_cons, readLast]
    simp only [readByte_ok first]
    exact reads

/-- The same when slot number `k` fails: what it gets to is the bytes before that slot's. -/
theorem readLast_fails {bs : List (BitVec 8)} (buf : Vector (BitVec 8) size) {s s₁ s' : β} {k : Nat} {code : StatusCode}
    {bit : Bool} (h : B.Reads s ((wireBits bs).take k) s₁) (within : k < 8 * bs.length) (fits : bs.length ≤ size)
    (slot : B.readBit s₁ = ((code, bit), s')) (failed : code ≠ .ok) :
    ∃ buf', B.readLast bs.length buf s = (code, buf', s') ∧ ∀ i < size - bs.length + k / 8,
      buf'[i]? = if i < size - bs.length then buf[i]? else bs[i - (size - bs.length)]? := by
  induction bs generalizing buf s k with
  | nil => simp at within
  | cons b bs ih =>
    rw [wireBits_cons] at h
    rw [List.length_cons] at within fits
    by_cases inner : k < 8
    · have short : ((lowBits 8 b ++ wireBits bs).take k).length < 8 := by
        rw [List.length_take]
        omega
      obtain ⟨byte', reads⟩ := readBits_fails (buf[size - (bs.length + 1)]?.getD 0) h short slot failed
      refine ⟨buf.setIfInBounds (size - (bs.length + 1)) byte', ?_, ?_⟩
      · rw [List.length_cons, readLast, readByte, reads]
        exact returnOnError_fail _ _ failed
      · intro i before
        rw [List.length_cons, Nat.div_eq_of_lt inner] at before
        rw [Nat.add_zero] at before
        rw [List.length_cons, if_pos before, Vector.getElem?_setIfInBounds_ne (by omega)]
    · have taken : (lowBits 8 b ++ wireBits bs).take k = lowBits 8 b ++ (wireBits bs).take (k - 8) := by
        rw [List.take_append, lowBits_length, List.take_of_length_le (by rw [lowBits_length]; omega)]
      rw [taken] at h
      obtain ⟨s₂, first, h⟩ := h.split
      obtain ⟨buf', reads, bytewise⟩ :=
        ih (buf.setIfInBounds (size - (bs.length + 1)) b) h (by omega) (Nat.le_of_succ_le fits)
      refine ⟨buf', ?_, ?_⟩
      · rw [List.length_cons, readLast]
        simp only [readByte_ok first]
        exact reads
      · intro i before
        rw [List.length_cons] at before
        rw [bytewise i (by omega), placed buf fits, List.length_cons]

/-! ## Round trip -/

variable (B)

/-- What `write_bytes` does with these bytes, and `read_bytes` where the line answers them. -/
structure RoundTrip (bs : List (BitVec 8)) : Prop where
  /-- Eight slots a byte, in list order, each byte from its least significant bit on. -/
  slots : (wireBits bs).length = 8 * bs.length ∧
    ∀ i n, n < 8 → (wireBits bs)[8 * i + n]? = bs[i]?.map fun b => b.getLsbD n
  write : ∀ s s', B.Writes s (wireBits bs) s' → B.writeBytes bs s = (.ok, s')
  writeFails : ∀ k bit code s s₁ s', B.Writes s ((wireBits bs).take k) s₁ → (wireBits bs)[k]? = some bit →
    B.writeBit bit s₁ = (code, s') → code ≠ .ok → B.writeBytes bs s = (code, s')
  read : ∀ (buf : Vector (BitVec 8) bs.length) s s', B.Reads s (wireBits bs) s' →
    ∃ buf', B.readBytes buf s = (.ok, buf', s') ∧ buf'.toList = bs
  readFails : ∀ (buf : Vector (BitVec 8) bs.length) k bit code s s₁ s', B.Reads s ((wireBits bs).take k) s₁ →
    k < 8 * bs.length → B.readBit s₁ = ((code, bit), s') → code ≠ .ok →
    ∃ buf', B.readBytes buf s = (code, buf', s') ∧ ∀ i < k / 8, buf'[i]? = bs[i]?

/-- **Bytes round-trip** over any bus. -/
theorem roundTrip {bs : List (BitVec 8)} (nonempty : bs ≠ []) : B.RoundTrip bs where
  slots := ⟨wireBits_length bs, fun i _ => wireBits_getElem? bs i⟩
  write s s' h := by rw [B.writeBytes_slots nonempty, h.slots]
  writeFails k bit code s s₁ s' h next slot failed := by
    obtain ⟨inside, here⟩ := List.getElem?_eq_some_iff.mp next
    have cut : wireBits bs = (wireBits bs).take k ++ bit :: (wireBits bs).drop (k + 1) := by
      rw [← here, List.getElem_cons_drop, List.take_append_drop]
    rw [B.writeBytes_slots nonempty, cut, h.fails slot failed]
  read buf s s' h := by
    obtain ⟨buf', reads, bytewise⟩ := readLast_ok buf h (Nat.le_refl _)
    refine ⟨buf', by rw [readBytes, if_neg (by simpa using nonempty), reads], ?_⟩
    apply List.ext_getElem?
    intro i
    rw [Vector.getElem?_toList, bytewise, Nat.sub_self, if_neg (Nat.not_lt_zero i), Nat.sub_zero]
  readFails buf k bit code s s₁ s' h within slot failed := by
    obtain ⟨buf', reads, bytewise⟩ := readLast_fails buf h within (Nat.le_refl _) slot failed
    refine ⟨buf', by rw [readBytes, if_neg (by simpa using nonempty), reads], ?_⟩
    intro i before
    rw [bytewise i (by omega), Nat.sub_self, if_neg (Nat.not_lt_zero i), Nat.sub_zero]

/-- A line that keeps the bits written and answers them in turn, as long as slots are left. -/
def storing : Bus (List Bool × Nat) where
  reset s := (.ok, s)
  writeBit
    | bit, (bits, left + 1) => (.ok, (bits ++ [bit], left))
    | _, s => (.timeout, s)
  readBit
    | (bit :: bits, left + 1) => ((.ok, bit), (bits, left))
    | s => ((.timeout, false), s)

theorem storing_writes (stored bits : List Bool) (left : Nat) :
    storing.Writes (stored, bits.length + left) bits (stored ++ bits, left) := by
  induction bits generalizing stored with
  | nil =>
    rw [List.length_nil, Nat.zero_add, List.append_nil]
    exact .start
  | cons bit bits ih =>
    have rest := ih (stored ++ [bit])
    rw [List.append_assoc, List.singleton_append] at rest
    rw [List.length_cons, Nat.add_right_comm]
    exact rest.cons rfl

theorem storing_reads (bits rest : List Bool) (left : Nat) :
    storing.Reads (bits ++ rest, bits.length + left) bits (rest, left) := by
  induction bits with
  | nil =>
    rw [List.length_nil, Nat.zero_add]
    exact .start
  | cons bit bits ih =>
    rw [List.length_cons, Nat.add_right_comm]
    exact ih.cons rfl

/-- Two bytes written and read back, and read back on a line that fails in the second one. -/
theorem roundTrip_two :
    storing.RoundTrip [0xA5, 0x3C] ∧
    storing.writeBytes [0xA5, 0x3C] ([], 16) = (.ok, (wireBits [0xA5, 0x3C], 0)) ∧
    (∃ buf : Vector (BitVec 8) 2, storing.readBytes #v[0, 0] (wireBits [0xA5, 0x3C], 16) = (.ok, buf, ([], 0)) ∧
      buf.toList = [0xA5, 0x3C]) ∧
    ∃ (buf : Vector (BitVec 8) 2) (s : List Bool × Nat),
      storing.readBytes #v[0, 0] (wireBits [0xA5, 0x3C], 10) = (.timeout, buf, s) ∧ buf[0]? = some 0xA5 := by
  have round : storing.RoundTrip [0xA5, 0x3C] := roundTrip storing (by decide)
  refine ⟨round, round.write _ _ (storing_writes [] (wireBits [0xA5, 0x3C]) 0),
    round.read _ _ _ (storing_reads (wireBits [0xA5, 0x3C]) [] 0), ?_⟩
  obtain ⟨buf, reads, kept⟩ := round.readFails #v[0, 0] 10 false .timeout _ _ _
    (storing_reads ((wireBits [0xA5, 0x3C]).take 10) ((wireBits [0xA5, 0x3C]).drop 10) 0) (by decide) rfl (by decide)
  exact ⟨buf, _, reads, kept 0 (by decide)⟩

end Bus

end OcsComponents.OneWire
