import BridgeMethods.Files.Path
import Mathlib.Data.List.DropRight

/-!
# The directories above a path

A path and its parents lose one component after the other, however oddly the path is written.  The
parent is written from segments of the path, so most of this is about texts with slashes: splitting
undoes joining, and what is cut off the end of the segments is one name.
-/

namespace BridgeMethods

/-! ## Texts with slashes -/

theorem splitSlashes_ne_nil (text : List Char) : splitSlashes text ≠ [] := by
  fun_cases splitSlashes text <;> simp_all

theorem splitSlashes_cons_of_ne {c : Char} (other : c ≠ '/') {rest segment : List Char}
    {segments : List (List Char)} (split : splitSlashes rest = segment :: segments) :
    splitSlashes (c :: rest) = (c :: segment) :: segments := by
  rw [splitSlashes, split]
  exact fun same => other same

theorem slash_not_mem_of_mem_splitSlashes {text segment : List Char}
    (member : segment ∈ splitSlashes text) : '/' ∉ segment := by
  induction text generalizing segment with
  | nil =>
      rw [List.mem_singleton.mp member]
      exact List.not_mem_nil
  | cons c rest ih =>
      by_cases slash : c = '/'
      · subst slash
        rcases List.mem_cons.mp member with rfl | member
        · exact List.not_mem_nil
        · exact ih member
      · cases split : splitSlashes rest with
        | nil => exact absurd split (splitSlashes_ne_nil rest)
        | cons first segments =>
            rw [splitSlashes_cons_of_ne slash split, List.mem_cons] at member
            rw [split] at ih
            rcases member with rfl | member
            · have free : '/' ∉ first := ih List.mem_cons_self
              simpa [Ne.symm slash] using free
            · exact ih (List.mem_cons_of_mem first member)

theorem splitSlashes_of_not_mem {segment : List Char} (free : '/' ∉ segment) :
    splitSlashes segment = [segment] := by
  induction segment with
  | nil => rfl
  | cons c segment ih =>
      obtain ⟨other, free⟩ := List.ne_and_not_mem_of_not_mem_cons free
      exact splitSlashes_cons_of_ne other.symm (ih free)

theorem splitSlashes_append_slash {segment : List Char} (free : '/' ∉ segment) (rest : List Char) :
    splitSlashes (segment ++ '/' :: rest) = segment :: splitSlashes rest := by
  induction segment with
  | nil => rfl
  | cons c segment ih =>
      obtain ⟨other, free⟩ := List.ne_and_not_mem_of_not_mem_cons free
      exact splitSlashes_cons_of_ne other.symm (ih free)

/-- Segments that are joined are read back, since there is no slash in any of them. -/
theorem splitSlashes_joinSlashes {segments : List (List Char)} (nonempty : segments ≠ [])
    (free : ∀ segment ∈ segments, '/' ∉ segment) :
    splitSlashes (joinSlashes segments) = segments := by
  induction segments with
  | nil => contradiction
  | cons segment rest ih =>
      obtain ⟨first, others⟩ := List.forall_mem_cons.mp free
      cases rest with
      | nil => exact splitSlashes_of_not_mem first
      | cons next rest =>
          rw [joinSlashes, splitSlashes_append_slash first,
            ih (List.cons_ne_nil next rest) others]
          nofun

theorem head?_joinSlashes {segment : List Char} (nonempty : segment ≠ [])
    (rest : List (List Char)) : (joinSlashes (segment :: rest)).head? = segment.head? := by
  cases rest with
  | nil => rfl
  | cons next rest => exact List.head?_append_of_ne_nil _ nonempty

namespace Path

/-! ## Segments and names -/

theorem slash_not_mem_of_mem_segments {path : Path} {segment : List Char}
    (member : segment ∈ path.segments) : '/' ∉ segment := by
  unfold segments at member
  split at member
  · exact slash_not_mem_of_mem_splitSlashes member
  · exact slash_not_mem_of_mem_splitSlashes member

theorem body_sublist (path : Path) : path.body.Sublist path.segments := by
  unfold body
  split
  · exact List.tail_sublist _
  · exact List.Sublist.refl _

/-- Without a dot at its start, a relative path starts with a name unless it is empty. -/
theorem isName_of_body_eq_cons {path : Path} (relative : path.isAbsolute = false)
    (noDot : path.hasLeadingDot = false) {first second : List Char} {rest : List (List Char)}
    (starts : path.body = first :: second :: rest) : isName first = true := by
  have split : splitSlashes path.text.toList = first :: second :: rest := by
    simpa [body, noDot, segments, relative] using starts
  have notDot : first ≠ ['.'] := by
    rintro rfl
    simp [hasLeadingDot, segments, relative, split] at noDot
  have notEmpty : first ≠ [] := by
    rintro rfl
    cases written : path.text.toList with
    | nil => simp [written, splitSlashes] at split
    | cons c text =>
        have slash : c = '/' := by
          by_contra other
          cases inner : splitSlashes text with
          | nil => exact splitSlashes_ne_nil text inner
          | cons segment segments =>
              rw [written, splitSlashes_cons_of_ne other inner] at split
              simp at split
        simp [isAbsolute, written, slash] at relative
  simp [isName, notDot, notEmpty]

theorem trimEnd_eq_rdropWhile (segments : List (List Char)) :
    trimEnd segments = segments.rdropWhile (!isName ·) := rfl

theorem trimEnd_isFront (segments : List (List Char)) : trimEnd segments <+: segments := by
  rw [trimEnd_eq_rdropWhile]
  exact List.rdropWhile_prefix _ segments

theorem trimEnd_eq_nil_iff {segments : List (List Char)} :
    trimEnd segments = [] ↔ segments.filter isName = [] := by
  rw [trimEnd_eq_rdropWhile, List.rdropWhile_eq_nil_iff, List.filter_eq_nil_iff]
  simp only [Bool.not_eq_true', Bool.not_eq_true]

/-- What is left out at the end is no name. -/
theorem filter_isName_trimEnd (segments : List (List Char)) :
    (trimEnd segments).filter isName = segments.filter isName := by
  induction segments using List.reverseRecOn with
  | nil => rfl
  | append_singleton front last ih =>
      rw [trimEnd_eq_rdropWhile, List.rdropWhile_concat]
      cases named : isName last with
      | true => simp
      | false =>
          simp only [Bool.not_false, if_true, ← trimEnd_eq_rdropWhile, ih, List.filter_append,
            List.filter_singleton, named, cond_false, List.append_nil]

/-- What is kept ends with a name, so that leaving out its last segment takes one name away. -/
theorem filter_isName_dropLast_trimEnd {segments : List (List Char)}
    (kept : trimEnd segments ≠ []) :
    (trimEnd segments).dropLast.filter isName = (segments.filter isName).dropLast := by
  have named : isName ((trimEnd segments).getLast kept) = true := by
    simpa [trimEnd_eq_rdropWhile] using List.rdropWhile_last_not (!isName ·) segments kept
  have split : (trimEnd segments).dropLast.filter isName ++ [(trimEnd segments).getLast kept] =
      segments.filter isName := by
    rw [← filter_isName_trimEnd segments]
    conv_rhs => rw [← List.dropLast_append_getLast kept]
    rw [List.filter_append, List.filter_singleton, named]
    rfl
  rw [← split, List.dropLast_concat]

/-! ## Paths with another body -/

/-- Segments that are read as they are written after the start of a path: if neither the root
directory nor a dot comes before them, the first of them has to be a name. -/
structure FitsBody (path : Path) (body : List (List Char)) : Prop where
  free : ∀ segment ∈ body, '/' ∉ segment
  starts : path.isAbsolute = false → path.hasLeadingDot = false →
    ∀ segment, body.head? = some segment → isName segment = true

theorem fitsBody_parent (path : Path) : path.FitsBody (trimEnd (trimEnd path.body).dropLast) where
  free segment member := by
    have inBody : segment ∈ path.body := (trimEnd_isFront _).subset
      (List.dropLast_subset _ ((trimEnd_isFront _).subset member))
    exact slash_not_mem_of_mem_segments ((body_sublist path).subset inBody)
  starts relative noDot segment starts := by
    -- One more segment at least has been cut off, so that the body starts with two of them.
    obtain ⟨rest, kept⟩ := List.head?_eq_some_iff.mp starts
    obtain ⟨cut, front⟩ := trimEnd_isFront (trimEnd path.body).dropLast
    have nonempty : trimEnd path.body ≠ [] := by
      intro empty
      rw [empty] at kept
      contradiction
    obtain ⟨ending, whole⟩ := trimEnd_isFront path.body
    rw [← List.dropLast_append_getLast nonempty, ← front, kept] at whole
    obtain ⟨second, others, after⟩ := List.exists_cons_of_ne_nil
      (l := rest ++ cut ++ [(trimEnd path.body).getLast nonempty] ++ ending) (by simp)
    have split : path.body = segment :: second :: others := by
      rw [← whole, ← after]
      simp
    exact isName_of_body_eq_cons relative noDot split

/-- A text that starts with a segment that is not empty is a relative path of these segments. -/
theorem segments_of_joinSlashes {path : Path} {segment : List Char} {rest : List (List Char)}
    (text : path.text.toList = joinSlashes (segment :: rest)) (nonempty : segment ≠ [])
    (free : ∀ other ∈ segment :: rest, '/' ∉ other) :
    path.isAbsolute = false ∧ path.segments = segment :: rest := by
  have relative : path.isAbsolute = false := by
    obtain ⟨c, letters, rfl⟩ := List.exists_cons_of_ne_nil nonempty
    have other : '/' ≠ c := List.ne_of_not_mem_cons (free _ List.mem_cons_self)
    simp [isAbsolute, text, head?_joinSlashes nonempty, other.symm]
  refine ⟨relative, ?_⟩
  simp only [segments, relative, Bool.false_eq_true, if_false, text]
  exact splitSlashes_joinSlashes (List.cons_ne_nil segment rest) free

theorem components_withBody_of_absolute {path : Path} {body : List (List Char)}
    (absolute : path.isAbsolute = true) (fits : path.FitsBody body) :
    (path.withBody body).components = body.filter isName ∧
      (path.withBody body).isAbsolute = true := by
  have noDot : path.hasLeadingDot = false := by simp [hasLeadingDot, absolute]
  have text : (path.withBody body).text.toList = '/' :: joinSlashes body := by
    simp [withBody, absolute, noDot]
  have stillAbsolute : (path.withBody body).isAbsolute = true := by simp [isAbsolute, text]
  have stillNoDot : (path.withBody body).hasLeadingDot = false := by
    simp [hasLeadingDot, stillAbsolute]
  refine ⟨?_, stillAbsolute⟩
  simp only [components, stillNoDot, Path.body, segments, stillAbsolute, text, List.tail_cons,
    if_true, Bool.false_eq_true, if_false, List.nil_append]
  cases body with
  | nil => rfl
  | cons segment rest => rw [splitSlashes_joinSlashes (List.cons_ne_nil segment rest) fits.free]

theorem components_withBody_of_dot {path : Path} {body : List (List Char)}
    (relative : path.isAbsolute = false) (dot : path.hasLeadingDot = true)
    (fits : path.FitsBody body) :
    (path.withBody body).components = ['.'] :: body.filter isName ∧
      (path.withBody body).isAbsolute = false := by
  have text : (path.withBody body).text.toList = joinSlashes (['.'] :: body) := by
    simp [withBody, relative, dot]
  have free : ∀ segment ∈ ['.'] :: body, '/' ∉ segment :=
    List.forall_mem_cons.mpr ⟨by decide, fits.free⟩
  obtain ⟨stillRelative, split⟩ := segments_of_joinSlashes text (by decide) free
  have stillDot : (path.withBody body).hasLeadingDot = true := by
    simp [hasLeadingDot, stillRelative, split]
  refine ⟨?_, stillRelative⟩
  simp only [components, stillDot, Path.body, split, if_true, List.tail_cons, List.singleton_append]

theorem components_withBody_of_relative {path : Path} {body : List (List Char)}
    (relative : path.isAbsolute = false) (noDot : path.hasLeadingDot = false)
    (fits : path.FitsBody body) :
    (path.withBody body).components = body.filter isName ∧
      (path.withBody body).isAbsolute = false := by
  have text : (path.withBody body).text.toList = joinSlashes body := by
    simp [withBody, relative, noDot]
  cases body with
  | nil =>
      have empty : path.withBody [] = ⟨""⟩ := by
        rw [withBody, noDot, relative]
        rfl
      rw [empty]
      decide
  | cons segment rest =>
      have named : isName segment = true := fits.starts relative noDot segment rfl
      have nonempty : segment ≠ [] := by
        rintro rfl
        contradiction
      have notDot : segment ≠ ['.'] := by
        rintro rfl
        contradiction
      obtain ⟨stillRelative, split⟩ := segments_of_joinSlashes text nonempty fits.free
      have stillNoDot : (path.withBody (segment :: rest)).hasLeadingDot = false := by
        simp [hasLeadingDot, split, notDot]
      refine ⟨?_, stillRelative⟩
      simp only [components, stillNoDot, Path.body, split, Bool.false_eq_true, if_false,
        List.nil_append]

/-- Another body becomes the components of a path, after the start that the path keeps. -/
theorem components_withBody {path : Path} {body : List (List Char)} (fits : path.FitsBody body) :
    (path.withBody body).components =
        (if path.hasLeadingDot then [['.']] else []) ++ body.filter isName ∧
      (path.withBody body).isAbsolute = path.isAbsolute := by
  cases absolute : path.isAbsolute with
  | true =>
      have noDot : path.hasLeadingDot = false := by simp [hasLeadingDot, absolute]
      simpa [noDot] using components_withBody_of_absolute absolute fits
  | false =>
      cases dot : path.hasLeadingDot with
      | true => simpa using components_withBody_of_dot absolute dot fits
      | false => simpa using components_withBody_of_relative absolute dot fits

/-! ## Parents -/

theorem parent?_eq_none_iff {path : Path} : path.parent? = none ↔ path.components = [] := by
  rw [parent?]
  cases kept : trimEnd path.body with
  | nil =>
      rw [components, trimEnd_eq_nil_iff.mp kept]
      cases path.hasLeadingDot <;> simp
  | cons segment rest =>
      have named : path.body.filter isName ≠ [] := by
        intro none
        rw [trimEnd_eq_nil_iff.mpr none] at kept
        contradiction
      simp [components, named]

/-- The parent of a path has the same start and all components but the last one. -/
theorem components_of_parent?_eq_some {path parent : Path} (up : path.parent? = some parent) :
    parent.components = path.components.dropLast ∧ parent.isAbsolute = path.isAbsolute := by
  rw [parent?] at up
  cases kept : trimEnd path.body with
  | nil =>
      simp only [kept] at up
      split at up
      · rename_i dot
        obtain rfl := Option.some.inj up
        have relative : path.isAbsolute = false := by
          by_contra absolute
          simp [hasLeadingDot, absolute] at dot
        rw [components, components, trimEnd_eq_nil_iff.mp kept, dot, relative]
        decide
      · contradiction
  | cons segment rest =>
      simp only [kept] at up
      rw [← kept] at up
      obtain rfl := Option.some.inj up
      have nonempty : trimEnd path.body ≠ [] := by
        rw [kept]
        exact List.cons_ne_nil segment rest
      have named : path.body.filter isName ≠ [] :=
        fun none => nonempty (trimEnd_eq_nil_iff.mpr none)
      obtain ⟨split, sameStart⟩ := components_withBody path.fitsBody_parent
      refine ⟨?_, sameStart⟩
      rw [split, components, filter_isName_trimEnd, filter_isName_dropLast_trimEnd nonempty,
        List.dropLast_append_of_ne_nil named]

/-! ## A path and its parents -/

theorem length_ancestors (path : Path) (limit : Nat) :
    (path.ancestors limit).length = min limit (1 + path.components.length) := by
  induction limit generalizing path with
  | zero => simp [ancestors]
  | succ limit ih =>
      rw [ancestors]
      cases up : path.parent? with
      | none =>
          rw [parent?_eq_none_iff.mp up]
          simp
      | some parent =>
          have exists_component : path.components ≠ [] := by
            intro none
            rw [parent?_eq_none_iff.mpr none] at up
            contradiction
          have positive := List.length_pos_iff.mpr exists_component
          simp only [List.length_cons, ih, (components_of_parent?_eq_some up).1,
            List.length_dropLast]
          omega

/-- The parents of a path are its components without the last ones, one less for each step up. -/
theorem of_getElem?_ancestors {path ancestor : Path} {limit i : Nat}
    (found : (path.ancestors limit)[i]? = some ancestor) :
    ancestor.components = path.components.take (path.components.length - i) ∧
      ancestor.isAbsolute = path.isAbsolute := by
  induction limit generalizing path i with
  | zero => simp [ancestors] at found
  | succ limit ih =>
      rw [ancestors] at found
      cases i with
      | zero =>
          obtain rfl := Option.some.inj found
          simp
      | succ i =>
          rw [List.getElem?_cons_succ] at found
          cases up : path.parent? with
          | none => simp [up] at found
          | some parent =>
              simp only [up] at found
              obtain ⟨split, sameStart⟩ := components_of_parent?_eq_some up
              obtain ⟨split', sameStart'⟩ := ih found
              refine ⟨?_, sameStart'.trans sameStart⟩
              rw [split', split, List.length_dropLast, List.dropLast_eq_take, List.take_take]
              congr 1
              omega

end Path

end BridgeMethods
