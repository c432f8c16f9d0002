import EpollServer.Lib.Last
import EpollServer.Theory.Blocks

/-!
# Versions of the Library

What `getFileVersion` and `getAlgoVersion` find, for every library and every
prefix and postfix.

Both are a loop over the names of the library that keeps one version, and
overwrites it with that of each matching file which has a valid one. There is
no comparison of versions: it is the last file listed that decides, and the
order of a directory is that of `readdir`. So the versions of all orders agree
if and only if all valid versions do.

The two tests of a name look at its two ends, and a name in which the prefix
and the postfix overlap passes both. `substr` throws for it, outside of the
`try` block that is for `std::stoi`. That is the only way in which a request
for a version ends with an exception, and the order does not matter for it.

## Main definitions

* `Matches`: Both tests accept a name.
* `Apart`: No matching name is too short.
* `fileVersion?`, `algoVersion?`: The valid version of a file.

## Theorems

* `versionPart_ok_iff`: When the version can be cut out.
* `fileVersionLoop_eq`, `algoVersionLoop_eq`: The loops overwrite.
* `version_of_last_listed`: The version is that of the last file listed.
* `version_request_completes_iff`: When a request ends without an exception.
-/

namespace EpollServer

namespace Library

open Last

variable {ν : Type}

/-- Both tests accept the name. -/
def Matches (pre post filename : List UInt8) : Prop :=
  (hasPrefix filename pre && hasPostfix filename post) = true

instance (pre post filename : List UInt8) : Decidable (Matches pre post filename) :=
  inferInstanceAs (Decidable (_ = true))

/-- In no matching name prefix and postfix overlap. -/
def Apart (pre post : List UInt8) (filenames : List (List UInt8)) : Prop :=
  ∀ filename ∈ filenames, Matches pre post filename → pre.length + post.length ≤ filename.length

instance (pre post : List UInt8) (filenames : List (List UInt8)) :
    Decidable (Apart pre post filenames) :=
  inferInstanceAs (Decidable (∀ filename ∈ filenames, _ → _))

/-- The version in a name, if the name matches and has a valid one. -/
def fileVersion? (pre post filename : List UInt8) : Option UInt32 :=
  if Matches pre post filename then
    match versionPart filename pre post with
    | .ok version => (stoi version).map UInt32.ofInt
    | .error _ => none
  else none

/-- The version in a file, if its name matches and it has a valid one. -/
def algoVersion? (L : JsonLibrary ν) (file : List UInt8 → LibraryFile ν)
    (pre post filename : List UInt8) : Option UInt32 :=
  if Matches pre post filename then
    match algoFileVersion L (file (path filename)) with
    | .ok version => version
    | .error _ => none
  else none

/-! ### The loops -/

theorem length_of_hasPostfix {filename post : List UInt8} (h : hasPostfix filename post = true) :
    post.length ≤ filename.length := by
  rw [hasPostfix, Bool.and_eq_true, decide_eq_true_eq] at h
  exact h.1

/-- The version can be cut out of a matching name that is long enough. -/
theorem versionPart_ok_iff {pre post filename : List UInt8} (h : Matches pre post filename) :
    (∃ version, versionPart filename pre post = .ok version) ↔
      pre.length + post.length ≤ filename.length := by
  have hpost := length_of_hasPostfix (Bool.and_eq_true_iff.mp h).2
  have hfront : (filename.take (filename.length - post.length)).length =
      filename.length - post.length := by
    rw [List.length_take]
    omega
  simp only [versionPart, hfront]
  by_cases hle : pre.length ≤ filename.length - post.length
  · rw [if_pos hle]
    exact iff_of_true ⟨_, rfl⟩ (by omega)
  · rw [if_neg hle]
    exact iff_of_false (fun ⟨_, hversion⟩ => by cases hversion) (by omega)

/-- A version that cannot be cut out is an exception. -/
theorem versionPart_error {pre post filename : List UInt8} {e : Interruption}
    (h : versionPart filename pre post = .error e) : e = .exception := by
  simp only [versionPart] at h
  split at h
  · cases h
  · cases h
    rfl

theorem fileVersionLoop_match {pre post filename : List UInt8} (h : Matches pre post filename)
    (rest : List (List UInt8)) (versionNumber : UInt32) :
    fileVersionLoop pre post (filename :: rest) versionNumber =
      versionPart filename pre post >>= fun version =>
        fileVersionLoop pre post rest (((stoi version).map UInt32.ofInt).getD versionNumber) :=
  if_pos h

theorem fileVersionLoop_skip {pre post filename : List UInt8} (h : ¬ Matches pre post filename)
    (rest : List (List UInt8)) (versionNumber : UInt32) :
    fileVersionLoop pre post (filename :: rest) versionNumber =
      fileVersionLoop pre post rest versionNumber :=
  if_neg h

theorem apart_cons {pre post filename : List UInt8} {rest : List (List UInt8)} :
    Apart pre post (filename :: rest) ↔
      (Matches pre post filename → pre.length + post.length ≤ filename.length) ∧
        Apart pre post rest :=
  List.forall_mem_cons

/-- The loop over the names overwrites the version, unless a name is too short. -/
theorem fileVersionLoop_eq (pre post : List UInt8) (filenames : List (List UInt8)) :
    ∀ versionNumber : UInt32, fileVersionLoop pre post filenames versionNumber =
      if Apart pre post filenames then
        .ok (overwrite (fileVersion? pre post) versionNumber filenames)
      else .error .exception := by
  induction filenames with
  | nil =>
      intro versionNumber
      have hapart : Apart pre post [] := fun _ hmem => absurd hmem List.not_mem_nil
      rw [if_pos hapart]
      rfl
  | cons filename rest ih =>
      intro versionNumber
      rw [overwrite_cons, fileVersion?]
      by_cases hmatch : Matches pre post filename
      · rw [fileVersionLoop_match hmatch, if_pos hmatch]
        cases hversion : versionPart filename pre post with
        | ok version =>
            -- A version that is no number leaves the one found before.
            have hle := (versionPart_ok_iff hmatch).mp ⟨version, hversion⟩
            have hapart : Apart pre post (filename :: rest) ↔ Apart pre post rest :=
              apart_cons.trans (and_iff_right fun _ => hle)
            simp only [hapart]
            exact ih _
        | error e =>
            -- The first name that is too short ends the loop.
            have hlt : ¬ pre.length + post.length ≤ filename.length := fun hle => by
              rcases (versionPart_ok_iff hmatch).mpr hle with ⟨version, hok⟩
              rw [hversion] at hok
              cases hok
            rw [if_neg fun h => hlt ((apart_cons.mp h).1 hmatch), versionPart_error hversion]
            rfl
      · have hapart : Apart pre post (filename :: rest) ↔ Apart pre post rest :=
          apart_cons.trans (and_iff_right fun hm => absurd hm hmatch)
        rw [fileVersionLoop_skip hmatch, if_neg hmatch, ih]
        simp only [hapart, Option.getD_none]

/-- The loop over the files overwrites the version. -/
theorem algoVersionLoop_eq (L : JsonLibrary ν) (file : List UInt8 → LibraryFile ν)
    (pre post : List UInt8) (filenames : List (List UInt8)) : ∀ versionNumber : UInt32,
    algoVersionLoop L file pre post filenames versionNumber =
      overwrite (algoVersion? L file pre post) versionNumber filenames := by
  induction filenames with
  | nil => exact fun versionNumber => rfl
  | cons filename rest ih =>
      intro versionNumber
      rw [overwrite_cons, ← ih, algoVersionLoop, algoVersion?]
      by_cases hmatch : Matches pre post filename
      · rw [if_pos hmatch]
        refine (if_pos hmatch).trans ?_
        cases algoFileVersion L (file (path filename)) with
        | ok version => rfl
        | error e => rfl
      · rw [if_neg hmatch]
        exact if_neg hmatch

/-- A version is found, if it is 0, unless a name is too short. -/
theorem getFileVersion_ok_iff (listing : Option (List (List UInt8))) (pre post : List UInt8) :
    (∃ version, getFileVersion listing pre post = .ok version) ↔
      ∀ filenames, listing = some filenames → Apart pre post filenames := by
  cases listing with
  | none =>
      refine iff_of_true ⟨0, rfl⟩ fun _ h => ?_
      cases h
  | some filenames =>
      simp only [getFileVersion, fileVersionLoop_eq, Option.some.injEq, forall_eq']
      by_cases hapart : Apart pre post filenames
      · rw [if_pos hapart]
        exact iff_of_true ⟨_, rfl⟩ hapart
      · rw [if_neg hapart]
        exact iff_of_false (fun ⟨_, hversion⟩ => by cases hversion) hapart

theorem apart_perm {pre post : List UInt8} {filenames other : List (List UInt8)}
    (h : filenames.Perm other) : Apart pre post other ↔ Apart pre post filenames :=
  ⟨fun hapart filename hmem => hapart filename (h.mem_iff.mp hmem),
    fun hapart filename hmem => hapart filename (h.mem_iff.mpr hmem)⟩

/-! ### The order of the library -/

/-- The version is that of the last file listed which matches and has a valid
    one, and 0 if there is none: in `getAlgoVersion`, and in `getFileVersion` if
    no matching name is too short. All orders agree if and only if all valid
    versions are the same. -/
theorem version_of_last_listed (L : JsonLibrary ν) (file : List UInt8 → LibraryFile ν)
    (pre post : List UInt8) (filenames : List (List UInt8)) :
    (Apart pre post filenames →
      getFileVersion (some filenames) pre post =
          .ok ((filenames.filterMap (fileVersion? pre post)).getLast?.getD 0) ∧
        ((∀ other, filenames.Perm other →
            getFileVersion (some other) pre post = getFileVersion (some filenames) pre post) ↔
          ∀ x ∈ filenames.filterMap (fileVersion? pre post),
            ∀ y ∈ filenames.filterMap (fileVersion? pre post), x = y)) ∧
      getAlgoVersion L file (some filenames) pre post =
        (filenames.filterMap (algoVersion? L file pre post)).getLast?.getD 0 ∧
      ((∀ other, filenames.Perm other → getAlgoVersion L file (some other) pre post =
          getAlgoVersion L file (some filenames) pre post) ↔
        ∀ x ∈ filenames.filterMap (algoVersion? L file pre post),
          ∀ y ∈ filenames.filterMap (algoVersion? L file pre post), x = y) := by
  refine ⟨fun hapart => ⟨?_, ?_⟩, ?_, ?_⟩
  · rw [getFileVersion, fileVersionLoop_eq, if_pos hapart, overwrite_eq]
  · simp only [getFileVersion, fileVersionLoop_eq]
    -- Whether a name is too short does not depend on the order.
    rw [← overwrite_perm_iff (fileVersion? pre post) 0 filenames]
    refine ⟨fun h other hperm => ?_, fun h other hperm => ?_⟩
    · have hsame := h other hperm
      rw [if_pos hapart, if_pos ((apart_perm hperm).mpr hapart)] at hsame
      exact Except.ok.inj hsame
    · rw [if_pos hapart, if_pos ((apart_perm hperm).mpr hapart), h other hperm]
  · rw [getAlgoVersion, algoVersionLoop_eq, overwrite_eq]
  · simp only [getAlgoVersion, algoVersionLoop_eq]
    exact overwrite_perm_iff _ 0 filenames

/-- Two orders of two files, with two versions. -/
theorem versions_of_two_orders :
    [[49], [50]].Perm [[50], [49]] ∧
      getFileVersion (some [[49], [50]]) [] [] = .ok 2 ∧
      getFileVersion (some [[50], [49]]) [] [] = .ok 1 :=
  ⟨by decide, by decide, by decide⟩

end Library

namespace Requests

open Library Effect

variable {ν : Type} (X : Context ν)

theorem lookUpVersion_file (pre post : List UInt8) (algoVersion : UInt32)
    (h : post ≠ algoPostfix) (w : World ν X.layout.payloadMax) :
    lookUpVersion X pre post algoVersion w = lift X (getFileVersion X.listing pre post) w := by
  rw [lookUpVersion, if_neg h]

/-- The version of an algorithm is always found, if it is 0. -/
theorem lookUpVersion_algo (pre : List UInt8) (algoVersion : UInt32)
    (w : World ν X.layout.payloadMax) :
    ∃ version t, lookUpVersion X pre algoPostfix algoVersion w = .ok version t := by
  rw [lookUpVersion, if_pos rfl]
  exact ⟨_, _, rfl⟩

/-- The version can be cut out of a matching name if and only if prefix and
    postfix do not overlap in it. `getFileVersion` completes if and only if that
    holds of all matching names, and so does a request for a version, except
    that nothing is cut out for the version of an algorithm. -/
theorem version_request_completes_iff (pre post : List UInt8) (algoVersion : UInt32)
    (w : World ν X.layout.payloadMax) :
    (∀ filename, Matches pre post filename →
        ((∃ version, versionPart filename pre post = .ok version) ↔
          pre.length + post.length ≤ filename.length)) ∧
      ((∃ version, getFileVersion X.listing pre post = .ok version) ↔
        ∀ filenames, X.listing = some filenames → Apart pre post filenames) ∧
      ((∃ t, handleVersionRequest X pre post algoVersion w = .ok () t) ↔
        post = algoPostfix ∨ ∀ filenames, X.listing = some filenames →
          Apart pre post filenames) := by
  have hfile := getFileVersion_ok_iff X.listing pre post
  refine ⟨fun filename hmatch => versionPart_ok_iff hmatch, hfile, ?_⟩
  rw [handleVersionRequest]
  by_cases hpost : post = algoPostfix
  · subst hpost
    rcases lookUpVersion_algo X pre algoVersion w with ⟨version, u, hu⟩
    rcases respond_view (.version version) u with ⟨t, ht, _⟩
    rw [bind_ok _ hu]
    exact iff_of_true ⟨t, ht⟩ (.inl rfl)
  · rw [or_iff_right hpost, ← hfile]
    have hlookUp := lookUpVersion_file X pre post algoVersion hpost w
    cases hversion : getFileVersion X.listing pre post with
    | ok version =>
        rw [hversion] at hlookUp
        rcases respond_view (.version version) w with ⟨t, ht, _⟩
        rw [bind_ok _ hlookUp]
        exact iff_of_true ⟨t, ht⟩ ⟨version, rfl⟩
    | error e =>
        -- The exception is that of the handler.
        rw [hversion] at hlookUp
        rw [bind_error _ hlookUp]
        refine iff_of_false ?_ ?_
        · rintro ⟨t, ht⟩
          simp only [reduceCtorEq] at ht
        · rintro ⟨version, hok⟩
          simp only [reduceCtorEq] at hok

/-- The name `hub.dfu` ends and begins with the postfix and the prefix of a
    request for `hub.dfu` and `.dfu`. -/
theorem overlapping_request :
    Matches (bytesOf "hub.dfu") (bytesOf ".dfu") (bytesOf "hub.dfu") ∧
      getFileVersion (some [bytesOf "hub.dfu"]) (bytesOf "hub.dfu") (bytesOf ".dfu") =
        .error .exception :=
  ⟨by decide, by decide⟩

end Requests

end EpollServer
