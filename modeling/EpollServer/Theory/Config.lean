import EpollServer.Lib.Last
import EpollServer.Core.Config

/-!
# Written and Read Again

What `loadConfig` reads from a file of keys and values, written one to a line.

A line gives its key the value as it was written, since the first `=` is the
one behind the key, and the first and last bytes that are no padding are those
of the value. An empty value has no such bytes: it is read as the padding it
was written with. A later line of the same key replaces it, so that only the
last line of each key counts (`config_round_trip_iff`).

## Main definitions

* `Entry`: A key and its value, with the padding they are written with.
* `Line`: A line of a file, with or without an entry.
* `text`: The bytes of a file.
* `lastEntry`: The entry in the last line of a key.
* `Entry.loaded`: The value that is read.

## Theorems

* `findIdx?_first`: The first byte of a kind.
* `findFirstNotOf_padded`, `findLastNotOf_padded`: Where a value is.
* `trim_padded`, `trim_padding`: What is left of a value.
* `getlines_text`: The lines are read as they were written.
* `loadConfig_text`: The value that is read for every key.
* `config_round_trip_iff`: When all values are the written ones.
-/

namespace EpollServer

namespace Config

open Last

/-- A key and its value, with the padding around the value. -/
structure Entry where
  key : List UInt8
  left : List UInt8
  value : List UInt8
  right : List UInt8
  key_plain : delimiter ∉ key ∧ newline ∉ key
  value_line : newline ∉ value
  value_head : ∀ b ∈ value.head?, isPadding b = false
  value_last : ∀ b ∈ value.getLast?, isPadding b = false
  left_padding : ∀ b ∈ left, isPadding b = true
  right_padding : ∀ b ∈ right, isPadding b = true

/-- A line of a file. -/
inductive Line where
  | entry (e : Entry)
  /-- A line without `=`. -/
  | plain (bytes : List UInt8) (h : delimiter ∉ bytes ∧ newline ∉ bytes)

/-- What stands behind the `=`. -/
def Entry.padded (e : Entry) : List UInt8 := e.left ++ e.value ++ e.right

/-- A line without its newline. -/
def Line.bytes : Line → List UInt8
  | .entry e => e.key ++ delimiter :: e.padded
  | .plain bytes _ => bytes

/-- The bytes of a file, with a newline behind each line. -/
def text (lines : List Line) : List UInt8 := lines.flatMap fun line => line.bytes ++ [newline]

/-- The key and the entry of a line, if it has one. -/
def Line.keyed : Line → Option (List UInt8 × Entry)
  | .entry e => some (e.key, e)
  | .plain _ _ => none

/-- The entry in the last line of a key. -/
def lastEntry (lines : List Line) (key : List UInt8) : Option Entry :=
  lastValue (lines.filterMap Line.keyed) key

/-- The value that is read from a line. -/
def Entry.loaded (e : Entry) : List UInt8 := if e.value = [] then e.left ++ e.right else e.value

/-! ### Positions -/

/-- The first byte of a kind. -/
theorem findIdx?_first (p : UInt8 → Bool) (front : List UInt8) (b : UInt8) (rest : List UInt8)
    (hfront : ∀ x ∈ front, p x = false) (hb : p b = true) :
    (front ++ b :: rest).findIdx? p = some front.length := by
  induction front with
  | nil => rw [List.nil_append, List.findIdx?_cons, if_pos hb, List.length_nil]
  | cons x front ih =>
      rw [List.forall_mem_cons] at hfront
      rw [List.cons_append, List.findIdx?_cons, hfront.1, ih hfront.2, List.length_cons]
      rfl

/-- Padding alone stays. -/
theorem trim_padding {value : List UInt8} (h : ∀ b ∈ value, isPadding b = true) :
    trim value = value := by
  have hnone : findFirstNotOf value = none := by
    rw [findFirstNotOf, List.findIdx?_eq_none_iff]
    intro b hb
    rw [h b hb]
    rfl
  rw [trim, hnone]

/-- The first byte that is no padding is the first of the value. -/
theorem findFirstNotOf_padded (e : Entry) (h : e.value ≠ []) :
    findFirstNotOf e.padded = some e.left.length := by
  rcases List.exists_cons_of_ne_nil h with ⟨b, rest, hvalue⟩
  have hb := e.value_head b (by rw [hvalue]; rfl)
  rw [findFirstNotOf, Entry.padded, hvalue, List.append_assoc]
  refine findIdx?_first _ _ b (rest ++ e.right) (fun x hx => ?_) ?_
  · rw [e.left_padding x hx]
    rfl
  · rw [hb]
    rfl

/-- The last one is the last of the value: it is found from behind. -/
theorem findLastNotOf_padded (e : Entry) (h : e.value ≠ []) :
    findLastNotOf e.padded = some (e.left.length + e.value.length - 1) := by
  have hpos : 0 < e.value.length := List.length_pos_iff.mpr h
  rcases (List.eq_nil_or_concat e.value).resolve_left h with ⟨front, b, hvalue⟩
  have hb := e.value_last b (by rw [hvalue, List.concat_eq_append, List.getLast?_concat]; rfl)
  have hreverse : e.padded.reverse = e.right.reverse ++ b :: (e.left ++ front).reverse := by
    simp only [Entry.padded, hvalue, List.concat_eq_append, List.reverse_append,
      List.reverse_cons, List.reverse_nil, List.nil_append, List.cons_append]
  have hindex : (e.padded.reverse.findIdx? fun x => !isPadding x) = some e.right.length := by
    have hlength : e.right.length = e.right.reverse.length := List.length_reverse.symm
    rw [hreverse, hlength]
    refine findIdx?_first _ _ b _ (fun x hx => ?_) ?_
    · rw [e.right_padding x (List.mem_reverse.mp hx)]
      rfl
    · rw [hb]
      rfl
  rw [findLastNotOf, hindex, Option.map_some, Entry.padded, List.length_append,
    List.length_append]
  congr 1
  omega

/-- Around a value the padding is cut off. -/
theorem trim_padded (e : Entry) (h : e.value ≠ []) : trim e.padded = e.value := by
  have hpos : 0 < e.value.length := List.length_pos_iff.mpr h
  have hcount : e.left.length + e.value.length - 1 - e.left.length + 1 = e.value.length := by omega
  simp only [trim, findFirstNotOf_padded e h, findLastNotOf_padded e h, hcount]
  rw [Entry.padded, List.append_assoc, List.drop_left, List.take_left]

/-- The value that is read. -/
theorem trim_loaded (e : Entry) : trim e.padded = e.loaded := by
  rw [Entry.loaded]
  by_cases h : e.value = []
  · have hpadded : e.padded = e.left ++ e.right := by
      rw [Entry.padded, h, List.append_nil]
    rw [if_pos h, hpadded]
    refine trim_padding fun b hb => ?_
    rcases List.mem_append.mp hb with hb | hb
    · exact e.left_padding b hb
    · exact e.right_padding b hb
  · rw [if_neg h, trim_padded e h]

/-! ### Lines -/

/-- A line as it is read, behind the bytes read of it before. -/
theorem getlines_line (bytes rest : List UInt8) : ∀ line : List UInt8, newline ∉ bytes →
    getlines line (bytes ++ newline :: rest) = (line ++ bytes) :: getlines [] rest := by
  induction bytes with
  | nil =>
      intro line _
      rw [List.nil_append, getlines, if_pos rfl, List.append_nil]
  | cons b bytes ih =>
      intro line h
      rw [List.mem_cons, not_or] at h
      rw [List.cons_append, getlines, if_neg (Ne.symm h.1), ih _ h.2, List.append_assoc]
      rfl

theorem isPadding_newline : isPadding newline = false := by decide

theorem newline_notMem_bytes (line : Line) : newline ∉ line.bytes := by
  cases line with
  | plain bytes h => exact h.2
  | entry e =>
      have hpadding : ∀ {l : List UInt8}, (∀ b ∈ l, isPadding b = true) → newline ∉ l :=
        fun h hmem => absurd (h newline hmem) (by rw [isPadding_newline]; exact Bool.false_ne_true)
      simp only [Line.bytes, Entry.padded, List.mem_append, List.mem_cons, not_or]
      exact ⟨e.key_plain.2, by decide, ⟨hpadding e.left_padding, e.value_line⟩,
        hpadding e.right_padding⟩

/-- The lines are read as they were written. -/
theorem getlines_text (lines : List Line) : getlines [] (text lines) = lines.map Line.bytes := by
  induction lines with
  | nil => rfl
  | cons line rest ih =>
      have hrun := getlines_line line.bytes (text rest) [] (newline_notMem_bytes line)
      rw [List.nil_append, ih] at hrun
      rw [List.map_cons, ← hrun, text, List.flatMap_cons, List.append_assoc]
      rfl

/-- A line of a file writes its value to the map. -/
theorem readLine_bytes (config : List UInt8 → Option (List UInt8)) (line : Line) :
    readLine config line.bytes =
      match line.keyed with
      | some (key, e) => Function.update config key (some e.loaded)
      | none => config := by
  cases line with
  | plain bytes h =>
      have hnone : find delimiter bytes = none := by
        rw [find, List.findIdx?_eq_none_iff]
        intro b hb
        exact decide_eq_false fun heq => h.1 (heq ▸ hb)
      simp only [readLine, Line.bytes, hnone, Line.keyed]
  | entry e =>
      -- The key has no `=`, so that the first one is the one behind it.
      have hfind : find delimiter (e.key ++ delimiter :: e.padded) = some e.key.length :=
        findIdx?_first _ _ _ _ (fun x hx => decide_eq_false fun heq => e.key_plain.1 (heq ▸ hx))
          (decide_eq_true rfl)
      have hvalue : (e.key ++ delimiter :: e.padded).drop (e.key.length + 1) = e.padded := by
        rw [← List.drop_drop, List.drop_left]
        rfl
      simp only [readLine, Line.bytes, hfind, Line.keyed, hvalue, List.take_left, trim_loaded]

/-- The map after some lines. -/
theorem foldl_readLine (lines : List Line) : ∀ config : List UInt8 → Option (List UInt8),
    (lines.map Line.bytes).foldl readLine config =
      writeAll config ((lines.filterMap Line.keyed).map fun p => (p.1, p.2.loaded)) := by
  induction lines with
  | nil => exact fun config => rfl
  | cons line rest ih =>
      intro config
      rw [List.map_cons, List.foldl_cons, ih, readLine_bytes, List.filterMap_cons]
      cases line with
      | plain bytes h => rfl
      | entry e => rfl

/-- For every key the value of its last line is read. -/
theorem loadConfig_text (lines : List Line) (key : List UInt8) :
    loadConfig (some (text lines)) key = (lastEntry lines key).map Entry.loaded := by
  rw [loadConfig, Option.getD_some, getlines_text, foldl_readLine, writeAll_eq, lastValue_map,
    lastEntry]

/-- The value that is read is the one that was written, unless there is nothing
    but padding. -/
theorem loaded_eq_iff (e : Entry) :
    e.loaded = e.value ↔ e.value ≠ [] ∨ e.left = [] ∧ e.right = [] := by
  rw [Entry.loaded]
  by_cases h : e.value = []
  · rw [if_pos h, h, List.append_eq_nil_iff]
    exact ⟨.inr, fun hor => hor.resolve_left fun hne => hne rfl⟩
  · rw [if_neg h]
    exact iff_of_true rfl (.inl h)

/-- The map gives each key the value of its last line, and has no other keys, if
    and only if no key has an empty value with padding in its last line. -/
theorem config_round_trip_iff (lines : List Line) :
    (∀ key, loadConfig (some (text lines)) key = (lastEntry lines key).map Entry.value) ↔
      ∀ key e, lastEntry lines key = some e → e.value ≠ [] ∨ e.left = [] ∧ e.right = [] := by
  refine forall_congr' fun key => ?_
  rw [loadConfig_text]
  cases lastEntry lines key with
  | none =>
      refine iff_of_true rfl fun _ h => ?_
      cases h
  | some e =>
      rw [Option.map_some, Option.map_some, Option.some.injEq, loaded_eq_iff]
      exact ⟨fun h _ heq => Option.some.inj heq ▸ h, fun h => h e rfl⟩

/-- An empty value in quotes. -/
def quotedNothing : Entry where
  key := [112]
  left := [39]
  value := []
  right := [39]
  key_plain := ⟨by decide, by decide⟩
  value_line := List.not_mem_nil
  value_head := by
    intro _ h
    cases h
  value_last := by
    intro _ h
    cases h
  left_padding := List.forall_mem_singleton.mpr rfl
  right_padding := List.forall_mem_singleton.mpr rfl

/-- An empty value in quotes is read as the quotes. -/
theorem quoted_nothing_kept :
    lastEntry [.entry quotedNothing] [112] = some quotedNothing ∧
      loadConfig (some (text [.entry quotedNothing])) [112] = some [39, 39] ∧
      ¬ ∀ key, loadConfig (some (text [.entry quotedNothing])) key =
        (lastEntry [.entry quotedNothing] key).map Entry.value := by
  have hlast : lastEntry [.entry quotedNothing] [112] = some quotedNothing := rfl
  have hload : loadConfig (some (text [.entry quotedNothing])) [112] = some [39, 39] := by decide
  refine ⟨hlast, hload, fun h => ?_⟩
  have hsame := h [112]
  rw [hload, hlast] at hsame
  exact absurd hsame (by decide)

end Config

end EpollServer
