import EpollServer.Core.Path
import EpollServer.Theory.Interest

/-!
# The Way out of the Library

Which names that `handleFileRequest` passes on stand for a file of the library.

Nothing is checked of a name but its length and its end. The path that is
opened begins in the library, and its last segment ends with `.algo` or
`.dfu`, so that it is a name, and not that of the library. In front of it there
may be any number of `..`, and they lead out: the file is one of the library if
and only if the path never leaves the library, or leaves it by one step and
comes back by its name (`path_below_library_iff`).

## Theorems

* `handleFileRequest_passedOn`: The names that are passed on.
* `segments_path`: The segments of the path that is opened.
* `exists_last_segment`: The last segment of a name that is passed on.
* `path_below_library_iff`: When the file is one of the library.
-/

namespace EpollServer

namespace Requests

open Paths
open Library (path library separator dot fileLibrary)

/-- The other names are not looked up. -/
theorem handleFileRequest_passedOn {ν : Type} (X : Context ν) (fuel : Nat) (filename : List UInt8) :
    (PassedOn filename → handleFileRequest X fuel filename = handleAlgoRequest X fuel filename ∨
      handleFileRequest X fuel filename = handleFirmwareRequest X fuel filename) ∧
    (¬ PassedOn filename → handleFileRequest X fuel filename = pure ()) := by
  rw [handleFileRequest]
  by_cases hlength : 5 < filename.length
  · rw [if_pos hlength]
    by_cases halgo : filename.drop (filename.length - 5) = algoPostfix
    · rw [if_pos halgo]
      exact ⟨fun _ => .inl rfl, fun h => absurd ⟨hlength, .inl halgo⟩ h⟩
    · rw [if_neg halgo]
      by_cases hdfu : filename.drop (filename.length - 4) = dfuPostfix
      · rw [if_pos hdfu]
        exact ⟨fun _ => .inr rfl, fun h => absurd ⟨hlength, .inr hdfu⟩ h⟩
      · rw [if_neg hdfu]
        exact ⟨fun h => absurd h.2 (not_or.mpr ⟨halgo, hdfu⟩), fun _ => rfl⟩
  · rw [if_neg hlength]
    exact ⟨fun h => absurd h.1 hlength, fun _ => rfl⟩

/-- The path begins in the library. -/
theorem segments_path (filename : List UInt8) :
    segments (path filename) = .current :: .name library :: segments filename := by
  have hpath : path filename = [dot] ++ separator :: (library ++ separator :: filename) := by
    rw [path, fileLibrary]
    simp only [List.cons_append, List.nil_append, List.append_assoc]
  rw [segments, hpath, List.splitOn_append_cons_self, List.splitOn_append_cons_self, segments]
  rfl

/-- The last segment has the end of the path. -/
theorem splitOn_append_end (p post : List UInt8) (h : separator ∉ post) :
    ∃ front s, (p ++ post).splitOn separator = front ++ [s ++ post] := by
  induction p with
  | nil => exact ⟨[], [], List.splitOn_eq_singleton h⟩
  | cons b p ih =>
      rcases ih with ⟨front, s, hsplit⟩
      rw [List.cons_append, List.splitOn_cons_eq_if_modifyHead, hsplit]
      by_cases hb : (b == separator) = true
      · rw [if_pos hb]
        exact ⟨[] :: front, s, rfl⟩
      · rw [if_neg hb]
        cases front with
        | nil => exact ⟨[], b :: s, rfl⟩
        | cons first front => exact ⟨(b :: first) :: front, s, rfl⟩

/-- A name that is passed on ends with a byte of its extension. -/
theorem exists_extension {filename : List UInt8} (h : PassedOn filename) :
    ∃ (p post : List UInt8) (b : UInt8), filename = p ++ (post ++ [b]) ∧
      separator ∉ post ++ [b] ∧ b ≠ dot ∧ library.getLast? ≠ some b := by
  rcases h.2 with halgo | hdfu
  · refine ⟨filename.take (filename.length - 5), algoPostfix.take 4, 111, ?_, by decide, by decide,
      by decide⟩
    conv_lhs => rw [← List.take_append_drop (filename.length - 5) filename, halgo]
    rfl
  · refine ⟨filename.take (filename.length - 4), dfuPostfix.take 3, 117, ?_, by decide, by decide,
      by decide⟩
    conv_lhs => rw [← List.take_append_drop (filename.length - 4) filename, hdfu]
    rfl

/-- A segment that does not end with a dot is a name. -/
theorem segmentOf_concat {b : UInt8} (h : b ≠ dot) (s : List UInt8) :
    segmentOf (s ++ [b]) = .name (s ++ [b]) := by
  have hdots : ∀ dots : List UInt8, dots.getLast? ≠ some b → s ++ [b] ≠ dots := by
    rintro dots hdots rfl
    exact hdots List.getLast?_concat
  have hdot : some dot ≠ some b := fun heq => h (Option.some.inj heq).symm
  rw [segmentOf, if_neg (not_or.mpr ⟨hdots [] (by simp), hdots [dot] hdot⟩),
    if_neg (hdots [dot, dot] hdot)]

/-- The last segment of a name that is passed on is a name, and another one than
    that of the library. -/
theorem exists_last_segment {filename : List UInt8} (h : PassedOn filename) :
    ∃ front a, segments filename = front ++ [.name a] ∧ a ≠ library := by
  rcases exists_extension h with ⟨p, post, b, rfl, hslash, hdot, hlast⟩
  rcases splitOn_append_end p (post ++ [b]) hslash with ⟨front, s, hsplit⟩
  refine ⟨front.map segmentOf, s ++ post ++ [b], ?_, ?_⟩
  · rw [segments, hsplit, List.map_append, List.map_singleton, ← List.append_assoc s,
      segmentOf_concat hdot]
  · intro heq
    rw [← heq, List.getLast?_concat] at hlast
    exact hlast rfl

/-- The file of a name that is passed on is one of the library if and only if the
    path never leaves the library, or comes back to it by its name after it has
    left it by one step. -/
theorem path_below_library_iff (filename : List UInt8) (h : PassedOn filename) :
    Inside library (resolvePath (path filename)) ↔ Kept library (segments filename) := by
  rcases exists_last_segment h with ⟨front, a, hsegments, hne⟩
  have hresolve : resolvePath (path filename) = resolve ⟨0, [library]⟩ (segments filename) := by
    rw [resolvePath, segments_path]
    rfl
  rw [hresolve, inside_resolve_iff, hsegments]
  exact ⟨fun hinside => hinside.1, fun hkept => ⟨hkept, rise_pos_of_kept hne hkept⟩⟩

theorem path_below_library_of_two :
    PassedOn (bytesOf "a/b.algo") ∧
      (Inside library (resolvePath (path (bytesOf "a/b.algo"))) ↔
        Kept library (segments (bytesOf "a/b.algo"))) :=
  ⟨by decide, path_below_library_iff (bytesOf "a/b.algo") (by decide)⟩

/-- A file next to the library. -/
theorem path_beside_library :
    PassedOn (bytesOf "../a.algo") ∧
      resolvePath (path (bytesOf "../a.algo")) = ⟨0, [bytesOf "a.algo"]⟩ ∧
      ¬ Inside library (resolvePath (path (bytesOf "../a.algo"))) := by
  have hresolve : resolvePath (path (bytesOf "../a.algo")) = ⟨0, [bytesOf "a.algo"]⟩ := by decide
  refine ⟨by decide, hresolve, ?_⟩
  rw [hresolve]
  rintro ⟨_, names, hne, heq⟩
  have hlength := congrArg List.length heq
  rw [List.length_append, List.length_singleton, List.length_singleton] at hlength
  exact hne (List.eq_nil_of_length_eq_zero (by omega))

end Requests

end EpollServer
