import Mathlib.Data.List.TakeWhile
import Mathlib.Tactic.Lemma
import Mathlib.Tactic.SplitIfs
import QueryPayload.Files.Scan
import QueryPayload.Proofs.Text.Split

/-!
# Extensions

What the extension of a file is, and when it is one of those asked for, without taking a path to
pieces.  A file ends in an extension if its name is a stem, a point and the extension; the last
point counts, and the stem is not empty, so that a point leading the name starts no extension.

## Main definitions

* `EndsIn` — a path ends in an extension.
* `Wanted` — a path ends in one of the extensions asked for.

## Main results

* `extension?_eq_some_iff` — the extension that is found is the one the path ends in.
* `hasExtension_iff` — a path has one of the extensions exactly if it ends in one of them.
-/

set_option relaxedAutoImplicit false
set_option autoImplicit false

namespace QueryPayload

open Text

/-- A path ends in an extension: the name behind the last separator is a stem, which is not empty, a
point, and the extension, which has no point in it. -/
def EndsIn (path ext : String) : Prop :=
  ∃ folder stem : String, path = folder ++ (stem ++ "." ++ ext) ∧
    (folder = "" ∨ ∃ above : String, folder = above ++ "/") ∧
    '/' ∉ (stem ++ "." ++ ext).toList ∧ stem ≠ "" ∧ '.' ∉ ext.toList

/-- A path ends in one of the extensions asked for, where these may have points in front. -/
def Wanted (extensions : List String) (path : String) : Prop :=
  ∃ asked ∈ extensions, ∃ (n : Nat) (ext : String),
    asked = String.ofList (List.replicate n '.') ++ ext ∧ EndsIn path ext

variable {path name ext : String}

/-! ## Names -/

/-- The name of a file is what stands behind the last separator of its path. -/
lemma fileName_append {folder : String} (hname : '/' ∉ name.toList)
    (hfolder : folder = "" ∨ ∃ above : String, folder = above ++ "/") :
    fileName (folder ++ name) = name := by
  obtain rfl | ⟨above, rfl⟩ := hfolder
  · rw [fileName, String.empty_append, split_of_not_mem hname]
    rfl
  · have hcut : split '/' (above ++ "/" ++ name) = split '/' above ++ [name] :=
      split_append_of_not_mem hname above
    rw [fileName, hcut, List.getLast?_concat]
    rfl

/-- A path is a folder, which may be missing, and a name. -/
lemma exists_eq_append_fileName (path : String) :
    ∃ folder : String, path = folder ++ fileName path ∧
      (folder = "" ∨ ∃ above : String, folder = above ++ "/") ∧ '/' ∉ (fileName path).toList := by
  by_cases h : '/' ∈ path.toList
  · obtain ⟨above, name, rfl, hname⟩ := exists_eq_append h
    have hfound : fileName (above ++ String.singleton '/' ++ name) = name :=
      fileName_append hname (.inr ⟨above, rfl⟩)
    rw [hfound]
    exact ⟨above ++ String.singleton '/', rfl, .inr ⟨above, rfl⟩, hname⟩
  · have hfound : fileName path = path := by
      rw [← String.empty_append (s := path)]
      exact fileName_append h (.inl rfl)
    exact ⟨"", by rw [hfound, String.empty_append], .inl rfl, hfound.symm ▸ h⟩

/-! ## Extensions -/

/-- A name without a point has no extension. -/
lemma extension?_of_not_mem (h : '.' ∉ (fileName path).toList) : extension? path = none := by
  rw [extension?, split_of_not_mem h]
  rfl

/-- The last piece of a name is the extension, unless it is the only one or stands behind nothing
but an empty one. -/
lemma extension?_of_pieces {rest : List String}
    (h : (split '.' (fileName path)).reverse = ext :: rest) (hne : rest ≠ []) (hne' : rest ≠ [""]) :
    extension? path = some ext := by
  rw [extension?, h]
  split
  · rename_i heq
    exact absurd heq (List.cons_ne_nil ext rest)
  · rename_i heq
    exact absurd (List.cons.inj heq).2 hne
  · rename_i heq
    exact absurd (List.cons.inj heq).2 hne'
  · rename_i heq
    rw [(List.cons.inj heq).1]

/-- The extension is what stands behind the last point, unless nothing stands before it. -/
lemma extension?_of_fileName {stem : String} (hname : fileName path = stem ++ "." ++ ext)
    (hext : '.' ∉ ext.toList) :
    extension? path = if stem = "" then none else some ext := by
  have hcut : split '.' (stem ++ "." ++ ext) = split '.' stem ++ [ext] :=
    split_append_of_not_mem hext stem
  have hpieces : (split '.' (fileName path)).reverse = ext :: (split '.' stem).reverse := by
    rw [hname, hcut, List.reverse_append, List.reverse_singleton, List.singleton_append]
  split_ifs with hstem
  · rw [extension?, hpieces, hstem]
    rfl
  · refine extension?_of_pieces hpieces (mt List.reverse_eq_nil_iff.1 (split_ne_nil '.' stem)) ?_
    intro hsingle
    exact hstem (eq_of_split_eq_singleton (List.reverse_eq_iff.1 hsingle))

/-- **The extension of a file** is the one that its path ends in. -/
theorem extension?_eq_some_iff : extension? path = some ext ↔ EndsIn path ext := by
  constructor
  · intro h
    obtain ⟨folder, hpath, hfolder, hseparator⟩ := exists_eq_append_fileName path
    by_cases hpoint : '.' ∈ (fileName path).toList
    · obtain ⟨stem, found, hname, hfound⟩ := exists_eq_append hpoint
      rw [extension?_of_fileName hname hfound, Option.ite_none_left_eq_some] at h
      obtain ⟨hstem, hext⟩ := h
      obtain rfl := Option.some.inj hext
      rw [hname] at hpath hseparator
      exact ⟨folder, stem, hpath, hfolder, hseparator, hstem, hfound⟩
    · rw [extension?_of_not_mem hpoint] at h
      exact absurd h (Option.some_ne_none ext).symm
  · rintro ⟨folder, stem, rfl, hfolder, hseparator, hstem, hext⟩
    rw [extension?_of_fileName (fileName_append hseparator hfolder) hext, if_neg hstem]

/-- What is left of an extension without the points in front, if there are no others. -/
lemma bareExtension_eq_iff {asked : String} (hext : '.' ∉ ext.toList) :
    bareExtension asked = ext ↔
      ∃ n : Nat, asked = String.ofList (List.replicate n '.') ++ ext := by
  constructor
  · rintro rfl
    refine ⟨(asked.toList.takeWhile (· = '.')).length, ?_⟩
    have hpoints : List.replicate (asked.toList.takeWhile (· = '.')).length '.' =
        asked.toList.takeWhile (· = '.') :=
      (List.eq_replicate_iff.2 ⟨rfl, fun c hc => by simpa using List.mem_takeWhile_imp hc⟩).symm
    rw [hpoints, bareExtension, ← String.ofList_append, List.takeWhile_append_dropWhile,
      String.ofList_toList]
  · rintro ⟨n, rfl⟩
    have hdrop : ext.toList.dropWhile (· = '.') = ext.toList := by
      rw [List.dropWhile_eq_self_iff]
      intro hlength hpoint
      exact hext (of_decide_eq_true hpoint ▸ List.getElem_mem hlength)
    rw [bareExtension, String.toList_append, String.toList_ofList,
      List.dropWhile_append_of_pos (by simp), hdrop, String.ofList_toList]

/-- **A file has one of the extensions** asked for exactly if its path ends in one of them, without
the points in front. -/
theorem hasExtension_iff {extensions : List String} :
    hasExtension extensions path = true ↔ Wanted extensions path := by
  rw [hasExtension, Wanted]
  cases hfound : extension? path with
  | none =>
    refine iff_of_false Bool.false_ne_true ?_
    rintro ⟨asked, -, n, ext, -, hends⟩
    rw [extension?_eq_some_iff.2 hends] at hfound
    exact Option.some_ne_none ext hfound
  | some ext =>
    have hends := extension?_eq_some_iff.1 hfound
    have hpoint : '.' ∉ ext.toList := by
      obtain ⟨-, -, -, -, -, -, h⟩ := hends
      exact h
    rw [List.contains_iff_mem, List.mem_map]
    refine exists_congr fun asked => and_congr_right fun _ => ?_
    rw [bareExtension_eq_iff hpoint]
    constructor
    · rintro ⟨n, rfl⟩
      exact ⟨n, ext, rfl, hends⟩
    · rintro ⟨n, other, rfl, hother⟩
      rw [extension?_eq_some_iff.2 hother] at hfound
      exact ⟨n, by rw [Option.some.inj hfound]⟩

end QueryPayload
