import OcsComponents.Status.Code

/-!
# JSON formatters

`ocs_fmt/json`. A formatter adds items to a cJSON document that it is given; every item is made
by one call of cJSON and added by another, each of which may fail, and is owned by a
`unique_ptr` between the two. The first failure ends the formatter, so what a document holds
then is the part that comes first in document order.
-/

namespace OcsComponents.Fmt
open Status

/-- The type of an item and the value it has for it. `δ` is `double`. -/
inductive Value (δ : Type) where
  | null
  | bool (value : Bool)
  | number (value : δ)
  | string (value : String)
  | array
  | object
  deriving DecidableEq, Repr

/-- A list of items as cJSON links them: `string`, the value, `child` and `next` of the first. -/
inductive Items (δ : Type) where
  | nil
  | cons (key : Option String) (value : Value δ) (child next : Items δ)
  deriving DecidableEq, Repr

variable {δ : Type}

namespace Items

/-- `items` with `added` behind the last one. -/
def append : Items δ → Items δ → Items δ
  | nil, added => added
  | cons key value child next, added => cons key value child (next.append added)

instance : Append (Items δ) := ⟨append⟩

/-- One item. -/
def item (key : Option String) (value : Value δ) (child : Items δ) : Items δ := cons key value child nil

/-- The items there are, at any depth. -/
def size : Items δ → Nat
  | nil => 0
  | cons _ _ child next => 1 + child.size + next.size

/-- The documents of a list, one after the other. -/
def join : List (Items δ) → Items δ
  | [] => nil
  | items :: rest => items ++ join rest

@[simp] theorem nil_append (items : Items δ) : nil ++ items = items := rfl

@[simp] theorem cons_append (key : Option String) (value : Value δ) (child next added : Items δ) :
    cons key value child next ++ added = cons key value child (next ++ added) := rfl

@[simp] theorem append_nil (items : Items δ) : items ++ nil = items := by
  induction items with
  | nil => rfl
  | cons key value child next _ ih => rw [cons_append, ih]

theorem append_assoc (a b c : Items δ) : a ++ b ++ c = a ++ (b ++ c) := by
  induction a with
  | nil => rfl
  | cons key value child next _ ih => rw [cons_append, cons_append, cons_append, ih]

@[simp] theorem size_nil : (nil : Items δ).size = 0 := rfl

@[simp] theorem size_cons (key : Option String) (value : Value δ) (child next : Items δ) :
    (cons key value child next).size = 1 + child.size + next.size := rfl

@[simp] theorem size_append (a b : Items δ) : (a ++ b).size = a.size + b.size := by
  induction a with
  | nil => simp
  | cons key value child next _ ih => simp [ih, Nat.add_assoc]

@[simp] theorem size_item (key : Option String) (value : Value δ) (child : Items δ) :
    (item key value child).size = 1 + child.size := rfl

end Items

/-- `cut` is what a document holds when writing it stopped at some point: before an item,
in what an item contains, or after it. -/
inductive Cut : Items δ → Items δ → Prop where
  | before (doc : Items δ) : Cut .nil doc
  | inside {key : Option String} {value : Value δ} {part child : Items δ} (next : Items δ) :
      Cut part child → Cut (.cons key value part .nil) (.cons key value child next)
  | after {key : Option String} {value : Value δ} {child part next : Items δ} :
      Cut part next → Cut (.cons key value child part) (.cons key value child next)

namespace Cut

theorem refl : ∀ doc : Items δ, Cut doc doc
  | .nil => .before _
  | .cons _ _ _ next => .after (refl next)

theorem append_left {part doc : Items δ} (rest : Items δ) (h : Cut part doc) : Cut part (doc ++ rest) := by
  induction h with
  | before doc => exact .before _
  | inside next inner _ => exact .inside _ inner
  | after _ ih => exact .after ih

theorem append_right {part doc : Items δ} (h : Cut part doc) : ∀ first : Items δ, Cut (first ++ part) (first ++ doc)
  | .nil => h
  | .cons _ _ _ next => .after (append_right h next)

end Cut

/-! ## cJSON -/

/-- The calls of cJSON so far, which of them fail, and the items made and not deleted since. -/
structure Heap where
  calls : Nat
  live : Int
  failures : Nat → Bool

namespace Heap

/-- The heap after a call that makes nothing. -/
def called (h : Heap) : Heap := { h with calls := h.calls + 1 }

/-- The heap after a call that makes an item. -/
def made (h : Heap) : Heap := { h with calls := h.calls + 1, live := h.live + 1 }

/-- `cJSON_Create...`: an item, or null. -/
def make (h : Heap) : Bool × Heap := if h.failures h.calls then (false, h.called) else (true, h.made)

/-- `cJSON_AddItemToObjectCS` and `cJSON_AddItemToArray`: whether the item is added. -/
def addItem (h : Heap) : Bool × Heap := (!h.failures h.calls, h.called)

/-- `cJSON_Delete`: an item goes with everything in it. -/
def delete (items : Items δ) (h : Heap) : Heap := { h with live := h.live - items.size }

/-- No call of cJSON between two points has failed. -/
def Clean (h h' : Heap) : Prop := ∀ k, h.calls ≤ k → k < h'.calls → h.failures k = false

end Heap

/-- `IFormatter::format`: a status, with the document and the heap it leaves. -/
abbrev Formatter (δ : Type) := Items δ → Heap → StatusCode × Items δ × Heap

/-- An item is made, filled, added under `key` and released. The `unique_ptr` deletes it on every
other way out. -/
def attach (key : Option String) (value : Value δ) (fill : Formatter δ) : Formatter δ := fun json h =>
  match h.make with
  | (false, h) => (.noMem, json, h)
  | (true, h) =>
    let (code, child, h) := fill .nil h
    if code ≠ .ok then (code, json, h.delete (.item key value child))
    else
      match h.addItem with
      | (false, h) => (.noMem, json, h.delete (.item key value child))
      | (true, h) => (.ok, json ++ .item key value child, h)

/-- `cJSON_AddArrayToObject`: the array is in the document before its elements are. -/
def addArrayToObject (key : String) (fill : Formatter δ) : Formatter δ := fun json h =>
  match h.make with
  | (false, h) => (.noMem, json, h)
  | (true, h) =>
    let (code, child, h) := fill .nil h
    (code, json ++ .item (some key) .array child, h)

/-- An item is made, added and released. -/
def addNew (key : Option String) (value : Value δ) (json : Items δ) (h : Heap) : Bool × Items δ × Heap :=
  match h.make with
  | (false, h) => (false, json, h)
  | (true, h) =>
    match h.addItem with
    | (false, h) => (false, json, h.delete (.item key value .nil))
    | (true, h) => (true, json ++ .item key value .nil, h)

namespace CjsonObjectFormatter

def addStringRefCs (key value : String) : Items δ → Heap → Bool × Items δ × Heap := addNew (some key) (.string value)
def addStringCs (key value : String) : Items δ → Heap → Bool × Items δ × Heap := addNew (some key) (.string value)
def addNumberCs (key : String) (value : δ) : Items δ → Heap → Bool × Items δ × Heap := addNew (some key) (.number value)
def addBoolCs (key : String) (value : Bool) : Items δ → Heap → Bool × Items δ × Heap := addNew (some key) (.bool value)
def addTrueCs (key : String) : Items δ → Heap → Bool × Items δ × Heap := addBoolCs key true
def addFalseCs (key : String) : Items δ → Heap → Bool × Items δ × Heap := addBoolCs key false
def addNullCs (key : String) : Items δ → Heap → Bool × Items δ × Heap := addNew (some key) .null

end CjsonObjectFormatter

namespace CjsonArrayFormatter

/-- `double` is the conversion to it. -/
def appendUint16 (double : Int → δ) (value : UInt16) : Items δ → Heap → Bool × Items δ × Heap :=
  addNew none (.number (double value.toNat))

def appendString (str : String) : Items δ → Heap → Bool × Items δ × Heap := addNew none (.string str)
def appendStringRef (str : String) : Items δ → Heap → Bool × Items δ × Heap := addNew none (.string str)

end CjsonArrayFormatter

/-- `if (!add(..)) return NoMem`. -/
def orNoMem (add : Items δ → Heap → Bool × Items δ × Heap) : Formatter δ := fun json h =>
  let (added, s) := add json h
  (if added then .ok else .noMem, s)

/-! ## The formatters -/

/-- `FanoutFormatter::format`: the formatters in turn, up to the first that fails. -/
def FanoutFormatter.format : List (Formatter δ) → Formatter δ
  | [], json, h => (.ok, json, h)
  | formatter :: formatters, json, h =>
    returnOnError (formatter json h) fun (json, h) => format formatters json h

/-- `FieldFormatter::Type`. -/
inductive FieldFormatter.Type where
  | object
  | array
  deriving DecidableEq, Repr

/-- The item that `make_field_` makes. -/
def FieldFormatter.Type.value : FieldFormatter.Type → Value δ
  | .object => .object
  | .array => .array

/-- `FieldFormatter::format`. -/
def FieldFormatter.format (key : String) (type : FieldFormatter.Type) (formatters : List (Formatter δ)) : Formatter δ :=
  attach (some key) type.value (FanoutFormatter.format formatters)

/-- `FuncFormatter::format`. -/
def FuncFormatter.format (func : Formatter δ) : Formatter δ := func

/-- `StringFormatter::format`, with `values_` in the order the map has them in. -/
def StringFormatter.format (values : List (String × String)) : Formatter δ :=
  FanoutFormatter.format (values.map fun (key, val) => orNoMem (CjsonObjectFormatter.addStringRefCs key val))

/-- `TimeFormatter::format`, where `getTime` is what `TimeOps::get_time` returns. -/
def TimeFormatter.format (double : Int → δ) (startPoint : Int) (getTime : Option Int) : Formatter δ := fun json h =>
  match getTime with
  | none => (.error, json, h)
  | some timestamp =>
    let timestamp := if timestamp < startPoint then -1 else timestamp
    orNoMem (CjsonObjectFormatter.addNumberCs "timestamp" (double timestamp)) json h

/-- `cJSON_PrintPreallocated` into a buffer of a size: the text of the members of an object if it fits, and what
is in the buffer if it does not. -/
structure Printer (δ : Type) where
  print : Items δ → Nat → Option String
  torn : Items δ → Nat → String

/-- `DynamicFormatter` and `StaticFormatter`: the size of the buffer and its text. -/
structure DynamicFormatter where
  size : Nat
  text : String
  deriving DecidableEq, Repr

/-- `DynamicFormatter::format`. -/
def DynamicFormatter.format (d : DynamicFormatter) (p : Printer δ) (json : Items δ) : StatusCode × DynamicFormatter :=
  match p.print json d.size with
  | none => (.noMem, { d with text := p.torn json d.size })
  | some text => (.ok, { d with text := text })

/-! ## What a formatter leaves

A formatter stands for a document. Whatever happens it appends a cut of it, the heap holds what
was appended and nothing else that is new, and it is `OK` only when no call failed. -/

/-- The outcome `r` of a formatter that has appended `written`, started with `json` and `h`. -/
structure Formatted (doc json : Items δ) (h : Heap) (r : StatusCode × Items δ × Heap) (written : Items δ) : Prop where
  items : r.2.1 = json ++ written
  cut : Cut written doc
  whole : r.1 = .ok → written = doc
  failures : r.2.2.failures = h.failures
  calls : h.calls ≤ r.2.2.calls
  live : r.2.2.live = h.live + written.size
  clean : r.1 = .ok → h.Clean r.2.2

/-- `f` stands for `doc`. -/
def Formats (f : Formatter δ) (doc : Items δ) : Prop := ∀ json h, ∃ written, Formatted doc json h (f json h) written

/-- `f` fails only when a call of cJSON does. -/
def Completes (f : Formatter δ) : Prop := ∀ json h, h.Clean (f json h).2.2 → (f json h).1 = .ok

namespace Heap

theorem Clean.refl (h : Heap) : h.Clean h := by
  intro k above below
  omega

/-- One call that succeeds. -/
theorem Clean.call {h h' : Heap} (calls : h'.calls = h.calls + 1) (succeeds : h.failures h.calls = false) :
    h.Clean h' := by
  intro k above below
  obtain rfl : k = h.calls := by omega
  exact succeeds

theorem Clean.trans {h h' h'' : Heap} (first : h.Clean h') (second : h'.Clean h'')
    (failures : h'.failures = h.failures) : h.Clean h'' := by
  intro k above below
  by_cases before : k < h'.calls
  · exact first k above before
  · rw [← failures]
    exact second k (by omega) below

end Heap

namespace Formatted
variable {doc json : Items δ} {h : Heap} {r : StatusCode × Items δ × Heap} {written : Items δ}

/-- Nothing is appended. -/
theorem skip (json : Items δ) (h : Heap) : Formatted .nil json h (.ok, json, h) .nil where
  items := (Items.append_nil json).symm
  cut := .before _
  whole := fun _ => rfl
  failures := rfl
  calls := Nat.le_refl _
  live := (Int.add_zero _).symm
  clean := fun _ => .refl h

/-- The rest of a document is not started after a failure. -/
theorem stop (first : Formatted doc json h r written) (failed : r.1 ≠ .ok) (rest : Items δ) :
    Formatted (doc ++ rest) json h r written where
  items := first.items
  cut := first.cut.append_left rest
  whole := fun ok => absurd ok failed
  failures := first.failures
  calls := first.calls
  live := first.live
  clean := first.clean

/-- The rest of a document goes behind the first part. -/
theorem seq {rest more : Items δ} {r' : StatusCode × Items δ × Heap} (first : Formatted doc json h r written)
    (ok : r.1 = .ok) (second : Formatted rest r.2.1 r.2.2 r' more) :
    Formatted (doc ++ rest) json h r' (written ++ more) where
  items := by rw [second.items, first.items, Items.append_assoc]
  cut := by
    rw [first.whole ok]
    exact second.cut.append_right doc
  whole := fun ok' => by rw [first.whole ok, second.whole ok']
  failures := second.failures.trans first.failures
  calls := Nat.le_trans first.calls second.calls
  live := by
    rw [second.live, first.live, Items.size_append]
    omega
  clean := fun ok' => (first.clean ok).trans (second.clean ok') first.failures

end Formatted

/-- The ways out of `attach`. -/
inductive Attach (key : Option String) (value : Value δ) (fill : Formatter δ) (json : Items δ) (h : Heap) :
    StatusCode × Items δ × Heap → Prop where
  | unmade (fails : h.failures h.calls = true) : Attach key value fill json h (.noMem, json, h.called)
  | unfilled {code : StatusCode} {child : Items δ} {h' : Heap} (makes : h.failures h.calls = false)
      (fill_eq : fill .nil h.made = (code, child, h')) (failed : code ≠ .ok) :
      Attach key value fill json h (code, json, h'.delete (.item key value child))
  | refused {child : Items δ} {h' : Heap} (makes : h.failures h.calls = false)
      (fill_eq : fill .nil h.made = (.ok, child, h'))
      (fails : h'.failures h'.calls = true) :
      Attach key value fill json h (.noMem, json, h'.called.delete (.item key value child))
  | added {child : Items δ} {h' : Heap} (makes : h.failures h.calls = false)
      (fill_eq : fill .nil h.made = (.ok, child, h'))
      (adds : h'.failures h'.calls = false) :
      Attach key value fill json h (.ok, json ++ .item key value child, h'.called)

theorem attach_cases (key : Option String) (value : Value δ) (fill : Formatter δ) (json : Items δ) (h : Heap) :
    Attach key value fill json h (attach key value fill json h) := by
  unfold attach Heap.make
  cases makes : h.failures h.calls with
  | true => exact .unmade makes
  | false =>
    rcases fill_eq : fill .nil h.made with ⟨code, child, h'⟩
    simp only [Bool.false_eq_true, if_false, fill_eq]
    by_cases ok : code = .ok
    · subst ok
      rw [if_neg (not_not_intro rfl), Heap.addItem]
      cases adds : h'.failures h'.calls with
      | true => exact .refused makes fill_eq adds
      | false => exact .added makes fill_eq adds
    · rw [if_pos ok]
      exact .unfilled makes fill_eq ok

/-- Nothing is appended when an item is not attached. -/
theorem Formatted.unattached {doc json : Items δ} {h h' : Heap} {code : StatusCode} (failed : code ≠ .ok)
    (failures : h'.failures = h.failures) (calls : h.calls ≤ h'.calls) (live : h'.live = h.live) :
    Formatted doc json h (code, json, h') .nil where
  items := (Items.append_nil json).symm
  cut := .before _
  whole := fun ok => absurd ok failed
  failures := failures
  calls := calls
  live := live.trans (Int.add_zero _).symm
  clean := fun ok => absurd ok failed

/-- An attached item is whole or not there. -/
theorem formatted_attach (key : Option String) (value : Value δ) {fill : Formatter δ} {doc : Items δ}
    (fills : Formats fill doc) (json : Items δ) (h : Heap) :
    Formatted (.item key value doc) json h (attach key value fill json h)
      (if (attach key value fill json h).1 = .ok then .item key value doc else .nil) := by
  obtain ⟨written, filled⟩ := fills .nil h.made
  have size : ((Items.item key value written).size : Int) = 1 + written.size := rfl
  have outcome := attach_cases key value fill json h
  generalize attach key value fill json h = r at outcome
  cases outcome with
  | unmade fails => exact .unattached (by decide) rfl (Nat.le_succ _) rfl
  | @unfilled code child h' makes fill_eq failed =>
    rw [fill_eq] at filled
    have same : child = written := filled.items
    have live : h'.live = h.live + 1 + written.size := filled.live
    have calls : h.calls + 1 ≤ h'.calls := filled.calls
    have failures : h'.failures = h.failures := filled.failures
    rw [same]
    rw [if_neg failed]
    refine .unattached failed failures (Nat.le_of_succ_le calls) ?_
    simp only [Heap.delete, size, live]
    omega
  | @refused child h' makes fill_eq fails =>
    rw [fill_eq] at filled
    have same : child = written := filled.items
    have live : h'.live = h.live + 1 + written.size := filled.live
    have calls : h.calls + 1 ≤ h'.calls := filled.calls
    have failures : h'.failures = h.failures := filled.failures
    rw [same]
    refine .unattached (by decide) failures (Nat.le_succ_of_le (Nat.le_of_succ_le calls)) ?_
    simp only [Heap.delete, Heap.called, size, live]
    omega
  | @added child h' makes fill_eq adds =>
    rw [fill_eq] at filled
    have same : child = written := filled.items
    have live : h'.live = h.live + 1 + written.size := filled.live
    have calls : h.calls + 1 ≤ h'.calls := filled.calls
    have failures : h'.failures = h.failures := filled.failures
    rw [same]
    have made : h.Clean h.made := .call rfl makes
    have clean := made.trans (filled.clean rfl) rfl
    rw [filled.whole rfl] at live ⊢
    exact {
      items := rfl
      cut := .refl _
      whole := fun _ => rfl
      failures := failures
      calls := Nat.le_succ_of_le (Nat.le_of_succ_le calls)
      live := by
        simp only [Heap.called, Items.size_item, live, if_true]
        omega
      clean := fun _ => clean.trans (.call rfl adds) failures }

theorem formats_attach (key : Option String) (value : Value δ) {fill : Formatter δ} {doc : Items δ}
    (fills : Formats fill doc) : Formats (attach key value fill) (.item key value doc) :=
  fun json h => ⟨_, formatted_attach key value fills json h⟩

/-- An array that is added first keeps the elements it has when one fails. -/
theorem formats_addArrayToObject (key : String) {fill : Formatter δ} {doc : Items δ} (fills : Formats fill doc) :
    Formats (addArrayToObject key fill) (.item (some key) .array doc) := by
  intro json h
  unfold addArrayToObject Heap.make
  cases makes : h.failures h.calls with
  | true => exact ⟨.nil, .unattached (by decide) rfl (Nat.le_succ _) rfl⟩
  | false =>
    obtain ⟨written, filled⟩ := fills .nil h.made
    have live : (fill .nil h.made).2.2.live = h.live + 1 + written.size := filled.live
    have made : h.Clean h.made := .call rfl makes
    exact ⟨.item (some key) .array written, {
      items := congrArg (fun child => json ++ Items.item (some key) .array child) filled.items
      cut := .inside _ filled.cut
      whole := fun ok => by rw [filled.whole ok]
      failures := filled.failures
      calls := Nat.le_of_succ_le filled.calls
      live := by
        simp only [Bool.false_eq_true, if_false, Items.size_item, live]
        omega
      clean := fun ok => made.trans (filled.clean ok) rfl }⟩

/-- One item, as an item that nothing is put into. -/
theorem orNoMem_addNew (key : Option String) (value : Value δ) :
    orNoMem (addNew key value) = attach key value fun json h => (.ok, json, h) := by
  funext json h
  unfold orNoMem addNew attach Heap.make Heap.addItem
  cases h.failures h.calls with
  | true => rfl
  | false =>
    simp only [Bool.false_eq_true, if_false, ne_eq, not_true]
    cases h.made.failures h.made.calls <;> rfl

theorem formats_addNew (key : Option String) (value : Value δ) :
    Formats (orNoMem (addNew key value)) (.item key value .nil) := by
  rw [orNoMem_addNew]
  exact formats_attach key value fun json h => ⟨_, .skip json h⟩

/-! ## What a formatter fails for -/

theorem Heap.Clean.mono {h h' h₁ h₂ : Heap} (clean : h.Clean h') (first : h.calls ≤ h₁.calls)
    (last : h₂.calls ≤ h'.calls) (failures : h₁.failures = h.failures) : h₁.Clean h₂ := by
  intro k ge lt
  rw [failures]
  exact clean k (by omega) (by omega)

theorem completes_attach (key : Option String) (value : Value δ) {fill : Formatter δ} {doc : Items δ}
    (fills : Formats fill doc) (completes : Completes fill) : Completes (attach key value fill) := by
  intro json h clean
  obtain ⟨written, filled⟩ := fills .nil h.made
  have outcome := attach_cases key value fill json h
  generalize attach key value fill json h = r at outcome clean
  cases outcome with
  | unmade fails =>
    rw [clean h.calls (Nat.le_refl _) (Nat.lt_succ_self _)] at fails
    cases fails
  | @unfilled code child h' makes fill_eq failed =>
    have completed := completes .nil h.made
    rw [fill_eq] at completed
    exact absurd (completed (clean.mono (Nat.le_succ _) (Nat.le_refl _) rfl)) failed
  | @refused child h' makes fill_eq fails =>
    rw [fill_eq] at filled
    have calls : h.calls + 1 ≤ h'.calls := filled.calls
    have failures : h'.failures = h.failures := filled.failures
    rw [failures, clean h'.calls (Nat.le_of_succ_le calls) (Nat.lt_succ_self _)] at fails
    cases fails
  | added => rfl

theorem completes_addArrayToObject (key : String) {fill : Formatter δ} (completes : Completes fill) :
    Completes (addArrayToObject key fill) := by
  intro json h clean
  unfold addArrayToObject Heap.make at *
  cases makes : h.failures h.calls with
  | true =>
    simp only [makes, if_true] at clean
    rw [clean h.calls (Nat.le_refl _) (Nat.lt_succ_self _)] at makes
    cases makes
  | false =>
    simp only [makes, Bool.false_eq_true, if_false] at clean ⊢
    exact completes .nil h.made (clean.mono (Nat.le_succ _) (Nat.le_refl _) rfl)

theorem completes_addNew (key : Option String) (value : Value δ) : Completes (orNoMem (addNew key value)) := by
  rw [orNoMem_addNew]
  exact completes_attach key value (fun json h => ⟨_, .skip json h⟩) fun _ _ _ => rfl

/-! ## Documents -/

/-- A formatter with the document it stands for, and the contract that it keeps: what it appends is that document, or
a cut of it where a call of cJSON fails. `reads`: whether what it asks for besides cJSON is there. -/
structure Document (δ : Type) where
  format : Formatter δ
  items : Items δ
  reads : Bool
  formats : Formats format items
  completes : reads = true → Completes format
  needs : ∀ json h, (format json h).1 = .ok → reads = true

namespace Document

/-- A member. -/
def member (key : String) (value : Value δ) : Document δ where
  format := orNoMem (addNew (some key) value)
  items := .item (some key) value .nil
  reads := true
  formats := formats_addNew _ _
  completes _ := completes_addNew _ _
  needs _ _ _ := rfl

/-- An element of an array. -/
def element (value : Value δ) : Document δ where
  format := orNoMem (addNew none value)
  items := .item none value .nil
  reads := true
  formats := formats_addNew _ _
  completes _ := completes_addNew _ _
  needs _ _ _ := rfl

/-- An item that is attached when a document has been put into it. -/
def attached (key : Option String) (value : Value δ) (d : Document δ) : Document δ where
  format := attach key value d.format
  items := .item key value d.items
  reads := d.reads
  formats := formats_attach key value d.formats
  completes reads := completes_attach key value d.formats (d.completes reads)
  needs json h ok := by
    have outcome := attach_cases key value d.format json h
    generalize attach key value d.format json h = r at outcome ok
    cases outcome with
    | unmade => cases ok
    | unfilled _ _ failed => exact absurd ok failed
    | refused => cases ok
    | added _ fill_eq _ => exact d.needs .nil h.made (congrArg Prod.fst fill_eq)

/-- An array that a document is put into when it is there. -/
def array (key : String) (d : Document δ) : Document δ where
  format := addArrayToObject key d.format
  items := .item (some key) .array d.items
  reads := d.reads
  formats := formats_addArrayToObject key d.formats
  completes reads := completes_addArrayToObject key (d.completes reads)
  needs json h ok := by
    unfold addArrayToObject Heap.make at ok
    cases makes : h.failures h.calls with
    | true =>
      rw [makes] at ok
      cases ok
    | false =>
      rw [makes] at ok
      exact d.needs .nil h.made ok

/-- `TimeFormatter`. -/
def time (double : Int → δ) (startPoint : Int) (getTime : Option Int) : Document δ where
  format := TimeFormatter.format double startPoint getTime
  items := match getTime with
    | none => .nil
    | some timestamp => .item (some "timestamp")
      (.number (double (if timestamp < startPoint then -1 else timestamp))) .nil
  reads := getTime.isSome
  formats := by
    cases getTime with
    | none => exact fun json h => ⟨.nil, .unattached (by decide) rfl (Nat.le_refl _) rfl⟩
    | some timestamp => exact formats_addNew _ _
  completes reads := by
    cases getTime with
    | none => cases reads
    | some timestamp => exact completes_addNew _ _
  needs json h ok := by
    cases getTime with
    | none => cases ok
    | some timestamp => rfl

end Document

section Fanout
variable (parts : List (Document δ))

/-- The documents of the formatters in a row. -/
theorem formats_fanout : Formats (FanoutFormatter.format (parts.map (·.format))) (.join (parts.map (·.items))) := by
  induction parts with
  | nil => exact fun json h => ⟨_, .skip json h⟩
  | cons part parts ih =>
    intro json h
    obtain ⟨written, first⟩ := part.formats json h
    simp only [List.map_cons, FanoutFormatter.format, Items.join]
    by_cases ok : (part.format json h).1 = .ok
    · obtain ⟨more, second⟩ := ih (part.format json h).2.1 (part.format json h).2.2
      rw [returnOnError, if_pos ok]
      exact ⟨_, first.seq ok second⟩
    · rw [returnOnError, if_neg ok]
      exact ⟨_, first.stop ok _⟩

theorem completes_fanout (reads : parts.all (·.reads) = true) :
    Completes (FanoutFormatter.format (parts.map (·.format))) := by
  induction parts with
  | nil => exact fun _ _ _ => rfl
  | cons part parts ih =>
    intro json h clean
    rw [List.all_cons, Bool.and_eq_true] at reads
    obtain ⟨_, first⟩ := part.formats json h
    obtain ⟨_, second⟩ := formats_fanout parts (part.format json h).2.1 (part.format json h).2.2
    simp only [List.map_cons, FanoutFormatter.format, returnOnError] at clean ⊢
    by_cases ok : (part.format json h).1 = .ok
    · rw [if_pos ok] at clean ⊢
      exact ih reads.2 _ _ (clean.mono first.calls (Nat.le_refl _) first.failures)
    · rw [if_neg ok] at clean
      exact absurd (part.completes reads.1 json h clean) ok

theorem needs_fanout (json : Items δ) (h : Heap)
    (ok : (FanoutFormatter.format (parts.map (·.format)) json h).1 = .ok) : parts.all (·.reads) = true := by
  induction parts generalizing json h with
  | nil => rfl
  | cons part parts ih =>
    simp only [List.map_cons, FanoutFormatter.format, returnOnError] at ok
    by_cases first : (part.format json h).1 = .ok
    · rw [if_pos first] at ok
      rw [List.all_cons, part.needs json h first, ih _ _ ok, Bool.and_self]
    · rw [if_neg first] at ok
      exact absurd ok first

end Fanout

namespace Document

/-- `FanoutFormatter`. -/
def fanout (parts : List (Document δ)) : Document δ where
  format := FanoutFormatter.format (parts.map (·.format))
  items := .join (parts.map (·.items))
  reads := parts.all (·.reads)
  formats := formats_fanout parts
  completes := completes_fanout parts
  needs := needs_fanout parts

/-- `FieldFormatter`. -/
def field (key : String) (type : FieldFormatter.Type) (parts : List (Document δ)) : Document δ :=
  (fanout parts).attached (some key) type.value

end Document

/-- A fanout of such formatters appends a cut of their documents in a row, and nothing else goes to the heap. It is
`OK`, and the cut the whole, if and only if no call of cJSON failed and the formatters read what they need. -/
theorem fanoutFormatter_cut (parts : List (Document δ)) (json : Items δ) (h : Heap) :
    let r := FanoutFormatter.format (parts.map (·.format)) json h
    let doc : Items δ := .join (parts.map (·.items))
    ∃ written, r.2.1 = json ++ written ∧ Cut written doc ∧ r.2.2.live = h.live + written.size ∧
      (r.1 = .ok ↔ h.Clean r.2.2 ∧ parts.all (·.reads) = true) ∧ (r.1 = .ok → written = doc) := by
  intro r doc
  obtain ⟨written, outcome⟩ := formats_fanout parts json h
  refine ⟨written, outcome.items, outcome.cut, outcome.live, ⟨fun ok => ?_, fun ⟨clean, reads⟩ => ?_⟩, outcome.whole⟩
  · exact ⟨outcome.clean ok, needs_fanout parts json h ok⟩
  · exact completes_fanout parts reads json h clean

/-- A field of formatters that keep the contract is in the document whole, with everything they write, or there is
nothing of it in the document and in the heap; and it is there if and only if no call of cJSON failed and
the formatters read what they need. -/
theorem fieldFormatter_whole_or_absent (key : String) (type : FieldFormatter.Type) (parts : List (Document δ))
    (json : Items δ) (h : Heap) :
    let r := FieldFormatter.format key type (parts.map (·.format)) json h
    let field : Items δ := .item (some key) type.value (.join (parts.map (·.items)))
    (r.1 = .ok ↔ h.Clean r.2.2 ∧ parts.all (·.reads) = true) ∧
      r.2.1 = (if r.1 = .ok then json ++ field else json) ∧
      r.2.2.live = h.live + (if r.1 = .ok then (field.size : Int) else 0) := by
  intro r field
  have outcome := formatted_attach (some key) type.value (formats_fanout parts) json h
  have items := outcome.items
  have live := outcome.live
  refine ⟨⟨fun ok => ⟨outcome.clean ok, ?_⟩, fun ⟨clean, reads⟩ => ?_⟩, ?_, ?_⟩
  · exact (Document.field key type parts).needs json h ok
  · exact (Document.field key type parts).completes reads json h clean
  · change r.2.1 = json ++ (if r.1 = .ok then field else .nil) at items
    rw [items]
    split
    · rfl
    · exact Items.append_nil json
  · change r.2.2.live = h.live + ((if r.1 = .ok then field else .nil : Items δ).size : Int) at live
    rw [live]
    split <;> rfl

end OcsComponents.Fmt
