import Mathlib.Data.List.Nodup
import OcsComponents.Algo.UriOps

/-!
# Writing a query and parsing it

The clients of the endpoints write `path?key=value&key=value`. `parse_query` returns the pairs that
have been written, and `find` the value of a key. The map has no order: its entries are those
of the pairs up to a permutation.
-/

namespace OcsComponents.Algo.UriOps
open WhileLoop

/-- The text of a pair. -/
def pairText (pair : List Char × List Char) : List Char := pair.1 ++ '=' :: pair.2

/-- The text of a URI with a query. -/
def queryText (path : List Char) (pairs : List (List Char × List Char)) : List Char :=
  path ++ '?' :: ['&'].intercalate (pairs.map pairText)

/-- What may be written: a path without a `?`, and pairs with different keys, not empty, without the
separators. -/
structure Writable (path : List Char) (pairs : List (List Char × List Char)) : Prop where
  path : '?' ∉ path
  nonempty : pairs ≠ []
  filled : ∀ p ∈ pairs, p.1 ≠ [] ∧ p.2 ≠ []
  keys : ∀ p ∈ pairs, '=' ∉ p.1 ∧ '&' ∉ p.1
  values : ∀ p ∈ pairs, '&' ∉ p.2
  distinct : (pairs.map (·.1)).Nodup

/-- `values.find(key)`, with `it->second`. -/
def Values.find (uri : CString) (values : Values) (key : List Char) : Option View :=
  (values.find? fun entry => entry.1.text uri == some key).map (·.2)

/-- The texts of the entries. -/
def Values.texts (uri : CString) (values : Values) : List (Option (List Char) × Option (List Char)) :=
  values.map fun entry => (entry.1.text uri, entry.2.text uri)

/-- The parts are the texts of the pairs. -/
theorem splitOn_query (pairs : List (List Char × List Char)) (nonempty : pairs ≠ [])
    (clean : ∀ p ∈ pairs, '&' ∉ pairText p) :
    (['&'].intercalate (pairs.map pairText)).splitOn '&' = pairs.map pairText := by
  apply List.splitOn_intercalate
  · intro text mem
    obtain ⟨p, inside, rfl⟩ := List.mem_map.mp mem
    exact clean p inside
  · simpa using nonempty

theorem drop_path {path : List Char} {pairs : List (List Char × List Char)} {uri : CString}
    (text : uri.text = queryText path pairs) :
    uri.text.drop (path.length + 1) = ['&'].intercalate (pairs.map pairText) := by
  rw [text, queryText, ← List.drop_drop, List.drop_left]
  rfl

theorem segments_query {path : List Char} {pairs : List (List Char × List Char)} (w : Writable path pairs)
    {uri : CString} (text : uri.text = queryText path pairs) : segments uri =
      place (path.length + 1) (pairs.map pairText) := by
  have mark : uri.text.findIdx? (· == '?') = some path.length := by
    rw [text, queryText, List.findIdx?_append, List.findIdx?_eq_none_iff.mpr]
    · simp [List.findIdx?_cons]
    · intro c mem
      rw [beq_eq_false_iff_ne]
      rintro rfl
      exact w.path mem
  simp only [segments, mark, drop_path text]
  rw [splitOn_query pairs w.nonempty]
  intro p mem inside
  rcases List.mem_append.mp inside with key | value
  · exact (w.keys p mem).2 key
  · exact w.values p mem (by simpa using value)

/-- The views of the pairs, from a position on. -/
def placePairs : Nat → List (List Char × List Char) → Values
  | _, [] => []
  | start, p :: rest =>
    (⟨start, p.1.length⟩, ⟨start + p.1.length + 1, p.2.length⟩) :: placePairs (start + (pairText p).length + 1) rest

/-- What comes after a pair. -/
def tailText : List (List Char × List Char) → List Char
  | [] => []
  | p :: rest => '&' :: (pairText p ++ tailText rest)

theorem intercalate_cons (p : List Char × List Char) (rest : List (List Char × List Char)) :
    ['&'].intercalate ((p :: rest).map pairText) = pairText p ++ tailText rest := by
  induction rest generalizing p with
  | nil => simp [tailText, List.intercalate]
  | cons q rest ih =>
    have step : ['&'].intercalate ((p :: q :: rest).map pairText) =
        pairText p ++ '&' :: ['&'].intercalate ((q :: rest).map pairText) := by
      simp [List.intercalate]
    rw [step, ih, tailText]

section
variable {uri : CString}

/-- What the views of a pair show. -/
theorem pair_texts {start : Nat} {p : List Char × List Char} {tail : List Char}
    (here : uri.text.drop start = pairText p ++ tail) :
    (View.mk start p.1.length).text uri = some p.1 ∧
      uri.text.drop (start + p.1.length + 1) = p.2 ++ tail ∧
      (View.mk (start + p.1.length + 1) p.2.length).text uri = some p.2 := by
  have value : uri.text.drop (start + p.1.length + 1) = p.2 ++ tail := by
    rw [Nat.add_assoc, ← List.drop_drop, here, pairText, ← List.drop_drop]
    simp
  refine ⟨?_, value, ?_⟩
  · simp [View.text, here, pairText]
  · simp [View.text, value]

/-- After a pair comes the next one. -/
theorem drop_tail {start : Nat} {p q : List Char × List Char} {rest : List (List Char × List Char)}
    (here : uri.text.drop start = pairText p ++ tailText (q :: rest)) :
    uri.text.drop (start + (pairText p).length + 1) = pairText q ++ tailText rest := by
  rw [Nat.add_assoc, ← List.drop_drop, here, ← List.drop_drop, List.drop_left]
  rfl

/-- The views of the pairs before one, and where it is. -/
theorem placePairs_append (before : List (List Char × List Char)) {p : List Char × List Char}
    {after : List (List Char × List Char)} {start : Nat}
    (here : uri.text.drop start = ['&'].intercalate ((before ++ p :: after).map pairText)) :
    ∃ place, placePairs start (before ++ p :: after) = placePairs start before ++
        (⟨place, p.1.length⟩, ⟨place + p.1.length + 1, p.2.length⟩) ::
          placePairs (place + (pairText p).length + 1) after ∧
      uri.text.drop place = pairText p ++ tailText after := by
  induction before generalizing start with
  | nil => exact ⟨start, rfl, by rw [here, List.nil_append, intercalate_cons]⟩
  | cons q before ih =>
    rw [List.cons_append, intercalate_cons] at here
    have next : uri.text.drop (start + (pairText q).length + 1) =
        ['&'].intercalate ((before ++ p :: after).map pairText) := by
      cases before with
      | nil => exact (drop_tail here).trans (intercalate_cons ..).symm
      | cons r before => exact (drop_tail here).trans (intercalate_cons ..).symm
    obtain ⟨place, same, there⟩ := ih next
    exact ⟨place, by rw [List.cons_append, placePairs, same]; rfl, there⟩

theorem length_placePairs (pairs : List (List Char × List Char)) (start : Nat) :
    (placePairs start pairs).length = pairs.length := by
  induction pairs generalizing start with
  | nil => rfl
  | cons p pairs ih => rw [placePairs, List.length_cons, ih, List.length_cons]

theorem texts_placePairs (pairs : List (List Char × List Char)) (start : Nat)
    (here : uri.text.drop start = ['&'].intercalate (pairs.map pairText)) :
    Values.texts uri (placePairs start pairs) = pairs.map fun p => (some p.1, some p.2) := by
  induction pairs generalizing start with
  | nil => rfl
  | cons p pairs ih =>
    rw [intercalate_cons] at here
    obtain ⟨key, _, value⟩ := pair_texts here
    have rest : Values.texts uri (placePairs (start + (pairText p).length + 1) pairs) =
        pairs.map fun p => (some p.1, some p.2) := by
      cases pairs with
      | nil => rfl
      | cons q pairs => exact ih _ ((drop_tail here).trans (intercalate_cons ..).symm)
    rw [Values.texts] at rest
    simp only [placePairs, Values.texts, List.map_cons, key, value, rest]

/-- The loop adds the pairs one after another. -/
theorem foldl_visit_query : ∀ (pairs : List (List Char × List Char)) (start : Nat) (values : Values),
    (∀ seg ∈ place start (pairs.map pairText), seg.In uri) →
    (∀ p ∈ pairs, p.1 ≠ [] ∧ p.2 ≠ [] ∧ '=' ∉ p.1) → (pairs.map (·.1)).Nodup →
    (∀ entry ∈ values, ∀ p ∈ pairs, entry.1.text uri ≠ some p.1) →
    (place start (pairs.map pairText)).foldl (visit uri) values = values ++ placePairs start pairs := by
  intro pairs
  induction pairs with
  | nil => exact fun _ _ _ _ _ _ => (List.append_nil _).symm
  | cons pair pairs ih =>
    intro start values inside each distinct fresh
    obtain ⟨seg_in, rest_in⟩ := List.forall_mem_cons.mp inside
    obtain ⟨⟨named, filled, first⟩, each'⟩ := List.forall_mem_cons.mp each
    rw [List.map_cons, List.nodup_cons] at distinct
    have is : IsPair (pairText pair) pair.1 pair.2 := ⟨rfl, named, first, filled⟩
    have tight : ¬ (Segment.mk start (pairText pair)).Leaks uri := fun leaks => leaks.1 (by simp [pairText])
    rcases visit_eq seg_in values tight with ⟨key, value, is', visits⟩ | ⟨other, _⟩
    · obtain ⟨rfl, rfl⟩ := is.unique is'
      have key_text : (View.mk start pair.1.length).text uri = some pair.1 := (pair_texts seg_in.text).1
      rcases emplace_eq uri values ⟨start, pair.1.length⟩ ⟨start + pair.1.length + 1, pair.2.length⟩ with
        ⟨_, entry, mem, same⟩ | ⟨added, _⟩
      · exact absurd (same.trans key_text) (fresh entry mem pair List.mem_cons_self)
      · have fresh' : ∀ entry ∈ visit uri values ⟨start, pairText pair⟩, ∀ p ∈ pairs, entry.1.text uri ≠ some p.1 := by
          intro entry mem p inside
          rw [visits, added] at mem
          rcases List.mem_append.mp mem with old | new
          · exact fresh entry old p (List.mem_cons_of_mem _ inside)
          · obtain rfl := List.mem_singleton.mp new
            intro same
            have equal : pair.1 = p.1 := Option.some.inj (key_text.symm.trans same)
            exact distinct.1 (equal ▸ List.mem_map_of_mem inside)
        rw [List.map_cons, place, List.foldl_cons, ih _ _ rest_in each' distinct.2 fresh', visits, added,
          List.append_assoc, placePairs, List.singleton_append]
    · exact absurd is (other _ _)

end

section
variable {path : List Char} {pairs : List (List Char × List Char)} {uri : CString}

theorem parseQuery_pairs (w : Writable path pairs) (text : uri.text = queryText path pairs) :
    Gives (parseQuery (some uri)) (placePairs (path.length + 1) pairs) := by
  have gives := parseQuery_gives uri
  rwa [segments_query w text, foldl_visit_query pairs (path.length + 1) [] ?_
    (fun p mem => ⟨(w.filled p mem).1, (w.filled p mem).2, (w.keys p mem).1⟩) w.distinct (List.forall_mem_nil _),
    List.nil_append] at gives
  rw [← segments_query w text]
  exact fun _ => in_of_mem_segments

/-- A key is found with its value, and the rest of the URI is behind it. -/
theorem find_placePairs {before after : List (List Char × List Char)} {key value : List Char}
    (w : Writable path (before ++ (key, value) :: after))
    (text : uri.text = queryText path (before ++ (key, value) :: after)) :
    ∃ v, Values.find uri (placePairs (path.length + 1) (before ++ (key, value) :: after)) key = some v ∧
      v.Shows uri v.data value ∧ uri.text.drop v.data = value ++ tailText after := by
  have texts := texts_placePairs _ (path.length + 1) (drop_path text)
  obtain ⟨at_, same, there⟩ := placePairs_append before (drop_path text)
  obtain ⟨key_text, value_place, value_text⟩ := pair_texts there
  have earlier : (placePairs (path.length + 1) before).find? (fun entry => entry.1.text uri == some key) = none := by
    rw [same, Values.texts, List.map_append, List.map_append] at texts
    have front : (placePairs (path.length + 1) before).map (fun entry => (entry.1.text uri, entry.2.text uri)) =
        before.map fun p => (some p.1, some p.2) := List.append_inj_left texts (by simp [length_placePairs])
    apply List.find?_eq_none.mpr
    intro entry mem found
    have listed : (entry.1.text uri, entry.2.text uri) ∈ before.map fun p => (some p.1, some p.2) :=
      front ▸ List.mem_map_of_mem mem
    obtain ⟨p, inside, equal⟩ := List.mem_map.mp listed
    have key_eq : p.1 = key := Option.some.inj ((Prod.ext_iff.mp equal).1.trans (by simpa using found))
    have distinct := w.distinct
    rw [List.map_append, List.map_cons, List.nodup_append'] at distinct
    exact distinct.2.2 (List.mem_map_of_mem inside) (by rw [key_eq]; exact List.mem_cons_self)
  refine ⟨⟨at_ + key.length + 1, value.length⟩, ?_, ⟨rfl, value_text⟩, value_place⟩
  rw [Values.find, same, List.find?_append, earlier, List.find?_cons_of_pos (by simpa using key_text)]
  rfl

/-- **What is written into a query is what is parsed from it**: the entries of the map are the pairs,
each once, and the look-up of a key finds its value. -/
theorem parseQuery_queryText (w : Writable path pairs) (text : uri.text = queryText path pairs) :
    ∃ values, Gives (parseQuery (some uri)) values ∧
      (values.texts uri).Perm (pairs.map fun p => (some p.1, some p.2)) ∧
      ∀ before key value after, pairs = before ++ (key, value) :: after →
        ∃ v, values.find uri key = some v ∧ v.text uri = some value ∧ uri.text.drop v.data = value ++
          tailText after := by
  refine ⟨_, parseQuery_pairs w text, .of_eq (texts_placePairs pairs (path.length + 1) (drop_path text)), ?_⟩
  intro before key value after split
  subst split
  obtain ⟨v, found, shows, rest⟩ := find_placePairs w text
  exact ⟨v, found, shows.text, rest⟩

theorem find_of_mem (w : Writable path pairs) (text : uri.text = queryText path pairs) {key value : List Char}
    (mem : (key, value) ∈ pairs) :
    ∃ v, Values.find uri (placePairs (path.length + 1) pairs) key = some v ∧ v.Shows uri v.data value := by
  obtain ⟨before, after, split⟩ := List.append_of_mem mem
  subst split
  obtain ⟨v, found, shows, -⟩ := find_placePairs w text
  exact ⟨v, found, shows⟩

end

/-- A request with two pairs. -/
def twoPairs : CString := ⟨['/', 't', '?', 'a', '=', '4', '&', 'b', '=', 'x', 'y'], by decide⟩

theorem parseQuery_queryText_two : ∃ values, Gives (parseQuery (some twoPairs)) values ∧
    (values.texts twoPairs).Perm [(some ['a'], some ['4']), (some ['b'], some ['x', 'y'])] ∧
    ∃ v, values.find twoPairs ['b'] = some v ∧ v.text twoPairs = some ['x', 'y'] := by
  have writable : Writable ['/', 't'] [(['a'], ['4']), (['b'], ['x', 'y'])] :=
    ⟨by decide, by decide, by decide, by decide, by decide, by decide⟩
  obtain ⟨values, gives, texts, find⟩ := parseQuery_queryText writable
    (show twoPairs.text = queryText ['/', 't'] [(['a'], ['4']), (['b'], ['x', 'y'])] by decide)
  obtain ⟨v, found, shows, _⟩ := find [(['a'], ['4'])] ['b'] ['x', 'y'] [] rfl
  exact ⟨values, gives, texts, v, found, shows⟩

end OcsComponents.Algo.UriOps
