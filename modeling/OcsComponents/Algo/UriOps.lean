import OcsComponents.Lib.CString
import OcsComponents.Lib.WhileLoop

/-!
# The query of a URI

`ocs_algo/uri_ops.cpp`. A `std::string_view` is a position in the URI and a difference of
two pointers. `parse_key_value` gets a segment of the query by its first and its last
character, and looks for the `=` with `strchr`, which does not stop at the last one. So a
segment without a `=` ends up in the values if there is a `=` after it (`Leaks`); and this
is the only thing that is wrong with `parse_query`.
-/

namespace OcsComponents.Algo
open WhileLoop

/-- A `std::string_view`. A negative size, as a `size_t`, is greater than any memory. -/
structure View where
  data : Nat
  size : Int
  deriving DecidableEq, Repr

def View.text (uri : CString) (v : View) : Option (List Char) :=
  if 0 ≤ v.size then some ((uri.text.drop v.data).take v.size.toNat) else none

/-- The view shows this text, at this place. -/
structure View.Shows (uri : CString) (v : View) (start : Nat) (text : List Char) : Prop where
  place : v = ⟨start, text.length⟩
  text : v.text uri = some text

namespace UriOps

/-- `UriOps::Values`: the entries of the map, a `std::unordered_map`. Their order here is that of the
calls of `emplace`; the map has none, and no main result depends on it. -/
abbrev Values := List (View × View)

/-- `std::unordered_map::emplace`: an entry with an equal key stays. -/
def emplace (uri : CString) (values : Values) (key value : View) : Values :=
  if values.any (fun entry => entry.1.text uri == key.text uri) then values else values ++ [(key, value)]

/-- `parse_key_value`. `last` is the last character of the segment. -/
def parseKeyValue (uri : CString) (values : Values) (first last : Nat) : Values :=
  match uri.strchr first '=' with
  | none => values
  | some delimiter =>
    if delimiter = first ∨ delimiter = last then values
    else emplace uri values ⟨first, delimiter - first⟩ ⟨delimiter + 1, (last : Int) - delimiter⟩

/-- An iteration of `parse_query`, from the `?` or a `&`. -/
def parseStep (uri : CString) : Nat × Values → Values ⊕ (Unit × (Nat × Values))
  | (queryStart, values) =>
    if queryStart = uri.strlen 0 then .inl values
    else
      match uri.strchr (queryStart + 1) '&' with
      | none =>
        let last := queryStart + 1 + uri.strlen (queryStart + 1) - 1
        .inl (parseKeyValue uri values (queryStart + 1) last)
      | some last => .inr ((), last, parseKeyValue uri values (queryStart + 1) (last - 1))

/-- `UriOps::parse_query`, with an allowance for its loop. -/
def parseQuery (uri : Option CString) (fuel : Nat) : Option Values :=
  match uri with
  | none => some []
  | some uri =>
    match uri.strchr 0 '?' with
    | none => some []
    | some queryStart => run (parseStep uri) fuel (queryStart, [])

/-! ## The grammar -/

/-- A part of the URI: where it starts, and its text. -/
structure Segment where
  start : Nat
  text : List Char

/-- Texts in a row, with one character in between. -/
def place : Nat → List (List Char) → List Segment
  | _, [] => []
  | start, text :: rest => ⟨start, text⟩ :: place (start + text.length + 1) rest

/-- The text after the first `?`, split at `&`. -/
def segments (uri : CString) : List Segment :=
  match uri.text.findIdx? (· == '?') with
  | none => []
  | some mark => place (mark + 1) ((uri.text.drop (mark + 1)).splitOn '&')

/-- The text of a segment is `key=value`. -/
structure IsPair (text key value : List Char) : Prop where
  split : text = key ++ '=' :: value
  named : key ≠ []
  first : '=' ∉ key
  filled : value ≠ []

/-- The values are those of the segments: of the first one with each key, and within it. -/
structure Parsed (uri : CString) (segments : List Segment) (values : Values) : Prop where
  sound : ∀ entry ∈ values, ∃ before seg after key value, segments = before ++ seg :: after ∧
    IsPair seg.text key value ∧ entry.1.Shows uri seg.start key ∧
    entry.2.Shows uri (seg.start + key.length + 1) value ∧
    ∀ earlier ∈ before, ∀ value, ¬ IsPair earlier.text key value
  complete : ∀ seg ∈ segments, ∀ key value, IsPair seg.text key value →
    ∃ entry ∈ values, entry.1.text uri = some key
  once : values.Pairwise fun entry entry' => entry.1.text uri ≠ entry'.1.text uri

/-- A segment without a `=` that has one after it. -/
def Segment.Leaks (uri : CString) (seg : Segment) : Prop :=
  '=' ∉ seg.text ∧ '=' ∈ uri.text.drop (seg.start + seg.text.length)

instance (uri : CString) (seg : Segment) : Decidable (seg.Leaks uri) := inferInstanceAs (Decidable (_ ∧ _))

/-- A text is cut at the first one of a character. -/
theorem cut_unique {c : Char} {key value key' value' : List Char} (first : c ∉ key) (first' : c ∉ key')
    (same : key ++ c :: value = key' ++ c :: value') : key = key' ∧ value = value' := by
  have cut : ∀ key value : List Char, c ∉ key → (key ++ c :: value).takeWhile (· != c) = key := by
    intro key value first
    rw [List.takeWhile_append_of_pos]
    · simp
    · intro c' mem
      rw [bne_iff_ne]
      rintro rfl
      exact first mem
  obtain rfl : key = key' := by rw [← cut key value first, same, cut key' value' first']
  exact ⟨rfl, (List.cons.inj (List.append_cancel_left same)).2⟩

theorem IsPair.unique {text key value key' value' : List Char} (h : IsPair text key value)
    (h' : IsPair text key' value') : key = key' ∧ value = value' :=
  cut_unique h.first h'.first (h.split.symm.trans h'.split)

/-! ## Segments in the URI -/

/-- The text of a segment, up to the end of the URI or a `&`. -/
structure Segment.In (uri : CString) (seg : Segment) : Prop where
  text : uri.text.drop seg.start = seg.text ++ uri.text.drop (seg.start + seg.text.length)
  ends : uri.text.drop (seg.start + seg.text.length) = [] ∨
    ∃ more, uri.text.drop (seg.start + seg.text.length) = '&' :: more
  whole : '&' ∉ seg.text
  after : 0 < seg.start

/-- A text begins with a part that has no separator. -/
theorem split_cases (separator : Char) (text : List Char) : (separator ∉ text ∧ text.splitOn separator = [text]) ∨
    ∃ part more, text = part ++ separator :: more ∧ separator ∉ part ∧
      text.splitOn separator = part :: more.splitOn separator := by
  by_cases mem : separator ∈ text
  · obtain ⟨part, more, rfl, first⟩ := List.eq_append_cons_of_mem mem
    exact .inr ⟨part, more, rfl, first, List.splitOn_append_cons_self_of_not_mem first more⟩
  · exact .inl ⟨mem, List.splitOn_eq_singleton mem⟩

/-- Induction on the parts of a text. -/
@[elab_as_elim]
theorem parts_induction (separator : Char) {motive : List Char → Prop}
    (whole : ∀ text, separator ∉ text → motive text)
    (append : ∀ part more, separator ∉ part → motive more → motive (part ++ separator :: more)) (text : List Char) :
    motive text := by
  rcases split_cases separator text with ⟨clean, -⟩ | ⟨part, more, rest, clean, -⟩
  · exact whole text clean
  · rw [rest]
    exact append part more clean (parts_induction separator whole append more)
termination_by text.length
decreasing_by
  rw [rest, List.length_append, List.length_cons]
  omega

theorem drop_drop_append {text before after : List Char} {start : Nat} (split : text.drop start = before ++ after) :
    text.drop (start + before.length) = after := by
  rw [← List.drop_drop, split, List.drop_left]

/-- The text between two positions of the URI. -/
theorem length_of_drop {text before after : List Char} {start : Nat} {c : Char}
    (split : text.drop start = before ++ c :: after) : start + before.length < text.length := by
  have length := congrArg List.length split
  simp only [List.length_drop, List.length_append, List.length_cons] at length
  omega

theorem in_of_mem_place {uri : CString} {seg : Segment} (start : Nat) (after : 0 < start)
    (mem : seg ∈ place start ((uri.text.drop start).splitOn '&')) : seg.In uri := by
  rcases split_cases '&' (uri.text.drop start) with ⟨whole, split⟩ | ⟨text, more, rest, whole, split⟩
  · rw [split] at mem
    obtain rfl := List.mem_singleton.mp mem
    have none_left : uri.text.drop (start + (uri.text.drop start).length) = [] := by
      apply List.drop_eq_nil_of_le
      rw [List.length_drop]
      omega
    exact ⟨by rw [none_left, List.append_nil], .inl none_left, whole, after⟩
  · have left := drop_drop_append rest
    have left' : uri.text.drop (start + text.length + 1) = more := by
      rw [← List.drop_drop, left]
      rfl
    rw [split] at mem
    rcases List.mem_cons.mp mem with rfl | mem
    · exact ⟨by rw [rest, left], .inr ⟨more, left⟩, whole, after⟩
    · rw [← left'] at mem
      exact in_of_mem_place (start + text.length + 1) (by omega) mem
termination_by uri.text.length - start
decreasing_by
  have := length_of_drop rest
  omega

/-- Every segment lies in the URI. -/
theorem in_of_mem_segments {uri : CString} {seg : Segment} (mem : seg ∈ segments uri) : seg.In uri := by
  unfold segments at mem
  split at mem
  · cases mem
  · exact in_of_mem_place _ (Nat.succ_pos _) mem

/-! ## The loop -/

/-- `parse_key_value` of a segment. -/
def visit (uri : CString) (values : Values) (seg : Segment) : Values :=
  parseKeyValue uri values seg.start (seg.start + seg.text.length - 1)

/-- From a position before the end, the loop visits the segments that are left, in order. -/
theorem parseStep_leaves {uri : CString} (start : Nat) (values : Values) (inside : start < uri.text.length) :
    Leaves (parseStep uri) (start, values)
      ((place (start + 1) ((uri.text.drop (start + 1)).splitOn '&')).foldl (visit uri) values) := by
  have goes_on : start ≠ uri.strlen 0 := by
    rw [CString.strlen_eq (Nat.zero_le _)]
    omega
  rcases split_cases '&' (uri.text.drop (start + 1)) with ⟨whole, split⟩ | ⟨text, more, rest, whole, split⟩
  · -- the last segment ends with the URI
    apply leaves_now
    rw [parseStep, if_neg goes_on, CString.strchr_of_not_mem (by decide) whole, split]
    simp only [place, List.foldl_cons, List.foldl_nil, visit, CString.strlen_eq inside, List.length_drop]
  · have mark := CString.strchr_of_append rest whole
    have left : uri.text.drop (start + 1 + text.length + 1) = more := by
      rw [← List.drop_drop, drop_drop_append rest]
      rfl
    have step : parseStep uri (start, values) =
        .inr ((), start + 1 + text.length, visit uri values ⟨start + 1, text⟩) := by
      rw [parseStep, if_neg goes_on, mark]
      rfl
    rw [split, place, List.foldl_cons, ← left]
    exact .later step (parseStep_leaves (start + 1 + text.length) _ (length_of_drop rest))
termination_by uri.text.length - start
decreasing_by
  have := length_of_drop rest
  omega

theorem parseQuery_gives (uri : CString) :
    Gives (parseQuery (some uri)) ((segments uri).foldl (visit uri) []) := by
  have mark : uri.strchr 0 '?' = uri.text.findIdx? (· == '?') := CString.strchr_zero (by decide)
  cases found : uri.text.findIdx? (· == '?') with
  | none =>
    rw [found] at mark
    have returns : parseQuery (some uri) = fun _ => some [] := by
      funext fuel
      simp only [parseQuery, mark]
    simp only [returns, segments, found, List.foldl_nil]
    exact gives_const []
  | some queryStart =>
    rw [found] at mark
    have inside : queryStart < uri.text.length := (List.findIdx?_eq_some_iff_getElem.mp found).1
    have loops : parseQuery (some uri) = fun fuel => run (parseStep uri) fuel (queryStart, []) := by
      funext fuel
      simp only [parseQuery, mark]
    simp only [loops, segments, found]
    exact (parseStep_leaves queryStart [] inside).gives

/-! ## One segment -/

theorem emplace_eq (uri : CString) (values : Values) (key value : View) :
    emplace uri values key value = values ∧ (∃ entry ∈ values, entry.1.text uri = key.text uri) ∨
    emplace uri values key value = values ++ [(key, value)] ∧
      ∀ entry ∈ values, entry.1.text uri ≠ key.text uri := by
  unfold emplace
  split
  case isTrue present =>
    obtain ⟨entry, mem, equal⟩ := List.any_eq_true.mp present
    exact .inl ⟨rfl, entry, mem, eq_of_beq equal⟩
  case isFalse absent =>
    refine .inr ⟨rfl, fun entry mem equal => absent ?_⟩
    exact List.any_eq_true.mpr ⟨entry, mem, beq_iff_eq.mpr equal⟩

/-- The values have a key with this text. -/
def Values.Has (uri : CString) (values : Values) (key : List Char) : Prop :=
  ∃ entry ∈ values, entry.1.text uri = some key

theorem has_emplace {uri : CString} {values : Values} {key value : View} {text : List Char}
    (shows : key.text uri = some text) : Values.Has uri (emplace uri values key value) text := by
  rcases emplace_eq uri values key value with ⟨same, entry, mem, equal⟩ | ⟨added, -⟩
  · rw [same]
    exact ⟨entry, mem, equal.trans shows⟩
  · rw [added]
    exact ⟨(key, value), List.mem_append_right _ (List.mem_singleton_self _), shows⟩

/-- Entries stay. -/
theorem visit_subset {uri : CString} {values : Values} {seg : Segment} {entry : View × View}
    (mem : entry ∈ values) : entry ∈ visit uri values seg := by
  unfold visit parseKeyValue
  split
  · exact mem
  · split
    · exact mem
    · rename_i delimiter _ _
      rcases emplace_eq uri values ⟨seg.start, delimiter - seg.start⟩
        ⟨delimiter + 1, ((seg.start + seg.text.length - 1 : Nat) : Int) - delimiter⟩ with ⟨same, -⟩ | ⟨added, -⟩
      · rw [same]
        exact mem
      · rw [added]
        exact List.mem_append_left _ mem

theorem foldl_subset {uri : CString} {entry : View × View} (segs : List Segment) {values : Values}
    (mem : entry ∈ values) : entry ∈ segs.foldl (visit uri) values := by
  induction segs generalizing values with
  | nil => exact mem
  | cons seg segs ih => exact ih (visit_subset mem)

theorem Segment.In.shows {uri : CString} {seg : Segment} (h : seg.In uri) {before text after : List Char}
    (split : seg.text = before ++ text ++ after) :
    View.Shows uri ⟨seg.start + before.length, text.length⟩ (seg.start + before.length) text where
  place := rfl
  text := by
    have from_start : uri.text.drop (seg.start + before.length) =
        text ++ (after ++ uri.text.drop (seg.start + seg.text.length)) := by
      apply drop_drop_append
      rw [h.text, split]
      simp only [List.append_assoc]
    simp [View.text, from_start]

/-- A segment that does not leak adds its pair, if it is one. -/
theorem visit_eq {uri : CString} {seg : Segment} (h : seg.In uri) (values : Values) (tight : ¬ seg.Leaks uri) :
    (∃ key value, IsPair seg.text key value ∧ visit uri values seg =
      emplace uri values ⟨seg.start, key.length⟩ ⟨seg.start + key.length + 1, value.length⟩) ∨
    (∀ key value, ¬ IsPair seg.text key value) ∧ visit uri values seg = values := by
  by_cases delimiter : '=' ∈ seg.text
  · obtain ⟨key, value, split, first⟩ := List.eq_append_cons_of_mem delimiter
    have found : uri.strchr seg.start '=' = some (seg.start + key.length) := by
      obtain ⟨post, rest⟩ : ∃ post, uri.text.drop seg.start = seg.text ++ post := ⟨_, h.text⟩
      rw [split, List.append_assoc] at rest
      exact CString.strchr_of_append rest first
    have length : seg.text.length = key.length + value.length + 1 := by
      rw [split, List.length_append, List.length_cons, Nat.add_assoc]
    by_cases pair : key ≠ [] ∧ value ≠ []
    · have named := List.length_pos_iff.mpr pair.1
      have filled := List.length_pos_iff.mpr pair.2
      have added : ¬ (seg.start + key.length = seg.start ∨
          seg.start + key.length = seg.start + seg.text.length - 1) := by omega
      refine .inl ⟨key, value, ⟨split, pair.1, first, pair.2⟩, ?_⟩
      simp only [visit, parseKeyValue, found, if_neg added]
      congr 2 <;> omega
    · have skipped : seg.start + key.length = seg.start ∨
          seg.start + key.length = seg.start + seg.text.length - 1 := by
        rcases not_and_or.mp pair with empty | empty
        · rw [not_not.mp empty]
          exact .inl rfl
        · rw [length, not_not.mp empty]
          exact .inr rfl
      refine .inr ⟨fun key' value' pair' => pair ?_, by simp only [visit, parseKeyValue, found, if_pos skipped]⟩
      obtain ⟨rfl, rfl⟩ := cut_unique pair'.first first (pair'.split.symm.trans split)
      exact ⟨pair'.named, pair'.filled⟩
  · have absent : uri.strchr seg.start '=' = none := by
      apply CString.strchr_of_not_mem (by decide)
      rw [h.text, List.mem_append, not_or]
      exact ⟨delimiter, fun later => tight ⟨delimiter, later⟩⟩
    refine .inr ⟨fun key value pair => ?_, by rw [visit, parseKeyValue, absent]⟩
    apply delimiter
    rw [pair.split]
    exact List.mem_append_right _ List.mem_cons_self

/-- A segment that leaks leaves a key with a `&`. -/
theorem visit_leak {uri : CString} {seg : Segment} (h : seg.In uri) (values : Values) (leaks : seg.Leaks uri) :
    ∃ key, '&' ∈ key ∧ Values.Has uri (visit uri values seg) key := by
  obtain ⟨absent, later⟩ := leaks
  obtain empty | ⟨more, ends⟩ := h.ends
  · rw [empty] at later
    cases later
  rw [ends] at later
  have later' : '=' ∈ more := by simpa using later
  obtain ⟨middle, after, split, first⟩ := List.eq_append_cons_of_mem later'
  -- the key goes on to the next `=`
  let key := seg.text ++ '&' :: middle
  have rest : uri.text.drop seg.start = key ++ '=' :: after := by
    rw [h.text, ends, split]
    simp [key]
  have found : uri.strchr seg.start '=' = some (seg.start + key.length) := by
    apply CString.strchr_of_append rest
    simp [key, absent, first]
  have length : key.length = seg.text.length + middle.length + 1 := by
    simp only [key, List.length_append, List.length_cons, Nat.add_assoc]
  have positive := h.after
  have added : ¬ (seg.start + key.length = seg.start ∨
      seg.start + key.length = seg.start + seg.text.length - 1) := by omega
  refine ⟨key, by simp [key], ?_⟩
  simp only [visit, parseKeyValue, found, if_neg added]
  apply has_emplace
  have size : ((seg.start + key.length : Nat) : Int) - seg.start = key.length := by omega
  rw [View.text, size, if_pos (Int.natCast_nonneg _), Int.toNat_natCast, rest, List.take_left]

/-! ## The whole query -/

variable {uri : CString} {segs : List Segment} {seg : Segment} {values : Values}

theorem Parsed.skip (h : Parsed uri segs values) (other : ∀ key value, ¬ IsPair seg.text key value) :
    Parsed uri (segs ++ [seg]) values where
  sound entry mem := by
    obtain ⟨before, seg', after, key, value, split, rest⟩ := h.sound entry mem
    exact ⟨before, seg', after ++ [seg], key, value, by simp [split], rest⟩
  complete seg' mem key value pair := by
    rcases List.mem_append.mp mem with mem | mem
    · exact h.complete seg' mem key value pair
    · obtain rfl := List.mem_singleton.mp mem
      exact absurd pair (other key value)
  once := h.once

theorem Parsed.emplace (h : Parsed uri segs values) {key value : List Char} {k v : View}
    (pair : IsPair seg.text key value) (key_shows : k.Shows uri seg.start key)
    (value_shows : v.Shows uri (seg.start + key.length + 1) value) :
    Parsed uri (segs ++ [seg]) (emplace uri values k v) := by
  have complete : ∀ values', (∀ entry ∈ values, entry ∈ values') → Values.Has uri values' key →
      ∀ seg' ∈ segs ++ [seg], ∀ key' value', IsPair seg'.text key' value' → Values.Has uri values' key' := by
    intro values' keeps has seg' mem key' value' pair'
    rcases List.mem_append.mp mem with mem | mem
    · obtain ⟨entry, mem, shows⟩ := h.complete seg' mem key' value' pair'
      exact ⟨entry, keeps entry mem, shows⟩
    · obtain rfl := List.mem_singleton.mp mem
      rwa [(pair'.unique pair).1]
  have has : Values.Has uri (UriOps.emplace uri values k v) key := has_emplace key_shows.text
  rcases emplace_eq uri values k v with ⟨same, -⟩ | ⟨added, fresh⟩
  · rw [same] at has ⊢
    refine ⟨fun entry mem => ?_, complete values (fun _ mem => mem) has, h.once⟩
    obtain ⟨before, seg', after, key', value', split, rest⟩ := h.sound entry mem
    exact ⟨before, seg', after ++ [seg], key', value', by simp [split], rest⟩
  · rw [added] at has ⊢
    refine ⟨fun entry mem => ?_, complete _ (fun _ mem => List.mem_append_left _ mem) has, ?_⟩
    · rcases List.mem_append.mp mem with mem | mem
      · obtain ⟨before, seg', after, key', value', split, rest⟩ := h.sound entry mem
        exact ⟨before, seg', after ++ [seg], key', value', by simp [split], rest⟩
      · obtain rfl := List.mem_singleton.mp mem
        refine ⟨segs, seg, [], key, value, rfl, pair, key_shows, value_shows, fun earlier mem value' pair' => ?_⟩
        obtain ⟨entry, mem, shows⟩ := h.complete earlier mem key value' pair'
        exact fresh entry mem (shows.trans key_shows.text.symm)
    · rw [List.pairwise_append]
      refine ⟨h.once, List.pairwise_singleton _ _, fun entry mem entry' mem' => ?_⟩
      obtain rfl := List.mem_singleton.mp mem'
      exact fresh entry mem

theorem Parsed.visit (h : Parsed uri segs values) (inside : seg.In uri) (tight : ¬ seg.Leaks uri) :
    Parsed uri (segs ++ [seg]) (visit uri values seg) := by
  rcases visit_eq inside values tight with ⟨key, value, pair, visits⟩ | ⟨other, visits⟩
  · rw [visits]
    refine h.emplace pair ?_ ?_
    · have split : seg.text = [] ++ key ++ '=' :: value := pair.split
      simpa using inside.shows split
    · have split : seg.text = (key ++ ['=']) ++ value ++ [] := by simp [pair.split]
      simpa [Nat.add_assoc] using inside.shows split
  · rw [visits]
    exact h.skip other

theorem Parsed.foldl (rest : List Segment) (h : Parsed uri segs values) (inside : ∀ seg ∈ rest, seg.In uri)
    (tight : ∀ seg ∈ rest, ¬ seg.Leaks uri) : Parsed uri (segs ++ rest) (rest.foldl (UriOps.visit uri) values) := by
  induction rest generalizing segs values with
  | nil => simpa using h
  | cons seg rest ih =>
    obtain ⟨seg_in, rest_in⟩ := List.forall_mem_cons.mp inside
    obtain ⟨seg_tight, rest_tight⟩ := List.forall_mem_cons.mp tight
    have := ih (h.visit seg_in seg_tight) rest_in rest_tight
    rwa [List.append_assoc] at this

theorem parsed_nil : Parsed uri [] [] := ⟨nofun, nofun, .nil⟩

/-- Keys of parsed values have no `&`. -/
theorem Parsed.no_separator (h : Parsed uri segs values) (inside : ∀ seg ∈ segs, seg.In uri) {key : List Char}
    (has : Values.Has uri values key) : '&' ∉ key := by
  obtain ⟨entry, mem, shows⟩ := has
  obtain ⟨before, seg, after, key', value, split, pair, key_shows, -⟩ := h.sound entry mem
  obtain rfl : key = key' := Option.some.inj (shows.symm.trans key_shows.text)
  have whole := (inside seg (by simp [split])).whole
  rw [pair.split, List.mem_append, not_or] at whole
  exact whole.1

/-- **The query is parsed as its grammar says if and only if no segment without a `=` has one
after it.** -/
theorem parseQuery_parsed_iff (uri : CString) : ∃ values, Gives (parseQuery (some uri)) values ∧
    (Parsed uri (segments uri) values ↔ ∀ seg ∈ segments uri, ¬ seg.Leaks uri) := by
  have inside : ∀ seg ∈ segments uri, seg.In uri := fun _ => in_of_mem_segments
  refine ⟨_, parseQuery_gives uri, fun parsed seg mem leaks => ?_, parsed_nil.foldl (segments uri) inside⟩
  obtain ⟨before, after, split⟩ := List.append_of_mem mem
  obtain ⟨key, separator, entry, has, shows⟩ := visit_leak (inside seg mem) (before.foldl (UriOps.visit uri) []) leaks
  refine parsed.no_separator inside ⟨entry, ?_, shows⟩ separator
  rw [split, List.foldl_append, List.foldl_cons]
  exact foldl_subset after has

/-- In `?a&b=c` the first segment leaks. -/
theorem parseQuery_leaks : ¬ ∀ uri : CString, ∃ values, Gives (parseQuery (some uri)) values ∧
    Parsed uri (segments uri) values := by
  intro parses
  let uri : CString := ⟨['?', 'a', '&', 'b', '=', 'c'], by decide⟩
  obtain ⟨values, gives, parsed⟩ := parses uri
  have runs : parseQuery (some uri) 3 = some [(⟨1, 3⟩, ⟨5, -3⟩), (⟨3, 1⟩, ⟨5, 1⟩)] := by decide
  obtain rfl := gives.2 3 _ runs
  have has : Values.Has uri [(⟨1, 3⟩, ⟨5, -3⟩), (⟨3, 1⟩, ⟨5, 1⟩)] ['a', '&', 'b'] :=
    ⟨_, List.mem_cons_self, by decide⟩
  exact parsed.no_separator (fun _ => in_of_mem_segments) has (by decide)

end UriOps

end OcsComponents.Algo
