import CucumberExpressions.FileTree
import Mathlib.Data.String.Basic

/-!
# What paths lead to

A path is cut at its slashes. A name without a slash is its own only component, so it leads to what
stands under it in the directory, unless it is too long for a component: then it is not even looked
for. Whether a path has a null character is the first question about it, so this is the reason
exactly for the paths that have one.

## Main results

* `pathComponents_eq` — the components of a path are what stands between its slashes
* `FileSystem.view_eq_embeddedNull_iff` — which paths are rejected for a null character
* `FileSystem.view_inRoot_of_slash_notMem` — what a name without a slash leads to
-/

namespace CucumberExpressions

open String

/-! ### Cutting at a character -/

/-- The invariant is that a part has been read since the last separator. -/
theorem splitOnAux_ofList_singleton (separator : Char) (before part rest : List Char)
    (parts : List String) :
    splitOnAux (ofList (before ++ part ++ rest)) (ofList [separator]) ⟨utf8Len before⟩
        ⟨utf8Len before + utf8Len part⟩ 0 parts =
      parts.reverse ++ (List.splitOnPPrepend (· == separator) rest part.reverse).map ofList := by
  induction rest generalizing before part parts with
  | nil =>
    have hend := atEnd_of_valid (before ++ part) []
    have hpart := extract_of_valid before part []
    rw [utf8Len_append] at hend
    rw [splitOnAux, if_pos (hend.mpr rfl), hpart]
    simp
  | cons c rest ih =>
    have hend := atEnd_of_valid (before ++ part) (c :: rest)
    have hpart := extract_of_valid before part (c :: rest)
    have hget := get_of_valid (before ++ part) (c :: rest)
    have hnext := next_of_valid (before ++ part) c rest
    rw [utf8Len_append] at hend hget hnext
    have hget' : Pos.Raw.get (ofList [separator]) 0 = separator := get_of_valid [] [separator]
    rw [splitOnAux, if_neg fun h => List.cons_ne_nil c rest (hend.mp h), hget, hget',
      List.headD_cons, List.splitOnPPrepend_cons_eq_if]
    by_cases hc : (c == separator) = true
    · obtain rfl : c = separator := beq_iff_eq.mp hc
      have hnext' : Pos.Raw.next (ofList [c]) 0 = ⟨c.utf8Size⟩ := by
        simpa using next_of_valid [] c []
      have hend' : Pos.Raw.atEnd (ofList [c]) ⟨c.utf8Size⟩ = true := by
        simpa using atEnd_of_valid [c] []
      have hback : (⟨utf8Len before + utf8Len part + c.utf8Size⟩ : Pos.Raw).unoffsetBy
          ⟨c.utf8Size⟩ = ⟨utf8Len before + utf8Len part⟩ := by
        simp [Pos.Raw.unoffsetBy]
      rw [if_pos hc, if_pos hc, hnext, hnext', if_pos hend', hback, hpart]
      simpa [-ofList_append, Nat.add_assoc] using
        ih (before ++ part ++ [c]) [] (ofList part :: parts)
    · have hback : (⟨utf8Len before + utf8Len part⟩ : Pos.Raw).unoffsetBy 0 =
          ⟨utf8Len before + utf8Len part⟩ := rfl
      rw [if_neg hc, if_neg hc, hback, hnext]
      simpa [-ofList_append, Nat.add_assoc] using ih before (part ++ [c]) parts

/-- A text is split at a character as its list of characters is. -/
theorem splitOn_ofList_singleton (text : String) (separator : Char) :
    text.splitOn (ofList [separator]) = (text.toList.splitOn separator).map ofList := by
  have h := splitOnAux_ofList_singleton separator [] [] text.toList []
  rw [List.nil_append, List.nil_append, ofList_toList] at h
  rw [String.splitOn, if_neg (by simp)]
  exact h

/-! ### Components -/

/-- The components of a path are what stands between its slashes, but for nothing and for single
dots. -/
theorem pathComponents_eq (path : String) :
    pathComponents path = ((path.toList.splitOn '/').map ofList).filter
      fun component => component ≠ "" ∧ component ≠ "." := by
  rw [pathComponents, ← splitOn_ofList_singleton]

section Name

variable {name : String}

/-- A name without a slash is the only component of its path. -/
theorem pathComponents_of_slash_notMem (hslash : '/' ∉ name.toList) (hempty : name ≠ "")
    (hdot : name ≠ ".") : pathComponents name = [name] := by
  rw [pathComponents_eq, List.splitOn_eq_singleton hslash]
  simp [hempty, hdot]

theorem isAbsolutePath_of_slash_notMem (hslash : '/' ∉ name.toList) :
    isAbsolutePath name = false := by
  rw [isAbsolutePath, startsWith_string_eq_false_iff]
  intro h
  exact hslash (h.subset List.mem_cons_self)

theorem rootOf_of_slash_notMem (hslash : '/' ∉ name.toList) : rootOf name = "" := by
  have htwo : name.startsWith "//" = false := by
    rw [startsWith_string_eq_false_iff]
    intro h
    exact hslash (h.subset List.mem_cons_self)
  simp [rootOf, htwo, isAbsolutePath_of_slash_notMem hslash]

theorem normalizePath_of_slash_notMem (hslash : '/' ∉ name.toList) (hempty : name ≠ "")
    (hdot : name ≠ ".") : normalizePath name = name := by
  rw [normalizePath, rootOf_of_slash_notMem hslash,
    pathComponents_of_slash_notMem hslash hempty hdot]
  simp [hempty]

end Name

/-! ### Following a path -/

/-- Null characters are looked for before a path is followed. -/
theorem FileTree.follow_ne_embeddedNull (here : Entries) (above : List Entries)
    (components : List String) : follow here above components ≠ .error .embeddedNull := by
  fun_induction follow here above components with
  | case2 | case3 | case6 => assumption
  | _ => simp

namespace FileSystem

variable {files : FileSystem} {entries : FileTree.Entries} {name : String}

/-- The null character is found out in every path with one. -/
theorem view_eq_embeddedNull_iff {path : String} :
    files.view path = .error .embeddedNull ↔ path.contains '\x00' = true := by
  unfold view
  split
  next h => exact iff_of_true rfl h
  next h =>
    refine iff_of_false ?_ h
    split
    · simp
    · exact FileTree.follow_ne_embeddedNull _ _ _

/-- A name without a slash leads to what stands under it, unless it is too long. -/
theorem view_inRoot_of_slash_notMem (hslash : '/' ∉ name.toList) (hnull : '\x00' ∉ name.toList)
    (hspecial : name ∉ ["", ".", ".."]) :
    (inRoot entries).view name =
      if name.utf8ByteSize > longestComponent then .error .nameTooLong
      else
        match entries.lookup name with
        | none => .error .notFound
        | some (.directory _) => .error .isDirectory
        | some (.file content) => .ok content
        | some .closed => .error .permissionDenied := by
  simp only [List.mem_cons, List.not_mem_nil, or_false, not_or] at hspecial
  obtain ⟨hempty, hdot, hdots⟩ := hspecial
  have hcontains : name.contains '\x00' = false := by simpa [contains_char_eq] using hnull
  have hway : (inRoot entries).resolve name = [name] := by
    rw [resolve, isAbsolutePath_of_slash_notMem hslash,
      pathComponents_of_slash_notMem hslash hempty hdot]
    rfl
  rw [view, if_neg (by simp [hcontains]), normalizePath_of_slash_notMem hslash hempty hdot, hway,
    FileTree.follow, if_neg hdots]
  by_cases hlong : name.utf8ByteSize > longestComponent
  · -- A path that is too long has a component that is too long.
    rw [if_pos hlong, if_pos hlong, ite_self]
  · have hpath : ¬ name.utf8ByteSize > longestPath := by
      unfold longestComponent at hlong
      unfold longestPath
      omega
    rw [if_neg hpath, if_neg hlong, if_neg hlong, inRoot]
    cases entries.lookup name with
    | none => rfl
    | some tree => cases tree <;> rfl

/-- It does not matter what is there if a name is too long. -/
theorem view_inRoot_of_longestComponent_lt (hslash : '/' ∉ name.toList)
    (hnull : '\x00' ∉ name.toList) (hlong : longestComponent < name.utf8ByteSize) :
    (inRoot entries).view name = .error .nameTooLong := by
  have hspecial : name ∉ ["", ".", ".."] := by
    intro h
    -- The special components are short.
    have hshort : ∀ component ∈ ["", ".", ".."], component.utf8ByteSize ≤ longestComponent := by
      decide
    exact Nat.not_lt.mpr (hshort name h) hlong
  rw [view_inRoot_of_slash_notMem hslash hnull hspecial, if_pos hlong]

end FileSystem

end CucumberExpressions
