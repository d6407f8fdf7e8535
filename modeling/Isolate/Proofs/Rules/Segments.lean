import Isolate.Proofs.Glob.Segments
import Isolate.Proofs.Path.Joining
import Isolate.Proofs.Rules.Tails

/-!
# Plain globs and the last components

A rule with a plain glob matches a path exactly if the segments of the glob fit the last pieces of
the path one by one, where backslashes are separators too. So a glob that starts with a separator
matches all of a path or starts where two separators of the path are next to each other, and in a
canonical path one of these is a backslash.
-/

namespace Isolate

namespace Text.Utf8

open Glob (separator)

variable {text : List Char} {front back : List UInt8}

/-- A separator among the bytes of a text is a separator of the text. -/
theorem exists_of_encode_eq_append (same : encode text = front ++ separator :: back) :
    ∃ before after, text = before ++ '/' :: after ∧ encode before = front ∧ encode after = back := by
  induction text generalizing front with
  | nil => exact absurd same.symm (List.append_ne_nil_of_right_ne_nil _ (List.cons_ne_nil _ _))
  | cons c text ih =>
    have rest (front' : List UInt8) (here : front = encodeChar c ++ front')
        (same : encode text = front' ++ separator :: back) :
        ∃ before after, c :: text = before ++ '/' :: after ∧ encode before = front ∧
          encode after = back := by
      obtain ⟨before, after, rfl, first, last⟩ := ih same
      exact ⟨c :: before, after, rfl, by rw [here, ← first]; rfl, last⟩
    change encodeChar c ++ encode text = _ at same
    rcases List.append_eq_append_iff.mp same with ⟨front', here, same⟩ | ⟨bytes, here, same⟩
    · exact rest front' here same
    · cases bytes with
      | nil => exact rest [] (by simpa using here.symm) same.symm
      | cons b bytes =>
        obtain ⟨rfl, last⟩ := List.cons.inj same
        have slash : c = '/' := by
          by_contra other
          exact Glob.separator_notMem_encodeChar other (here ▸ by simp)
        subst slash
        obtain ⟨rfl, rfl⟩ : front = [] ∧ bytes = [] := by
          have long := congrArg List.length here
          rw [Glob.encodeChar_slash, List.length_singleton, List.length_append, List.length_cons] at long
          exact ⟨List.length_eq_zero_iff.mp (by omega), List.length_eq_zero_iff.mp (by omega)⟩
        exact ⟨[], text, rfl, rfl, last.symm⟩

theorem eq_nil_of_encode_eq_nil (none : encode text = []) : text = [] := by
  cases text with
  | nil => rfl
  | cons c text => exact absurd (List.append_eq_nil_iff.mp none).1 (Glob.encodeChar_ne_nil c)

/-- Two separators next to each other among the bytes of a text are so in the text. -/
theorem repeated_of_encode (doubled : [separator, separator] <:+: encode text) : ['/', '/'] <:+: text := by
  obtain ⟨front, back, same⟩ := doubled
  rw [List.append_assoc] at same
  obtain ⟨before, after, rfl, _, last⟩ := exists_of_encode_eq_append same.symm
  have last : encode after = [] ++ separator :: back := last
  obtain ⟨before', after, rfl, none, _⟩ := exists_of_encode_eq_append last
  rw [eq_nil_of_encode_eq_nil none]
  exact ⟨before, after, by simp⟩

end Text.Utf8

namespace Rules

open Glob (separator)

def pieces (path : Path) : List (List UInt8) := (subject path).splitOn separator

/-- The last pieces of a path fit the segments of a glob one by one. -/
def FitsLast (pattern : String) (path : Path) : Prop :=
  (pattern.toList.splitOn '/').length ≤ (pieces path).length ∧
    List.Forall₂ Glob.Fits (pattern.toList.splitOn '/')
      ((pieces path).drop ((pieces path).length - (pattern.toList.splitOn '/').length))

/-- The segments of a glob cover a whole path. -/
def Covers (pattern : String) (path : Path) : Prop :=
  List.Forall₂ Glob.Fits (pattern.toList.splitOn '/') (pieces path)

variable {pattern : String} {path : Path}

/-- A glob that starts with a separator covers a path whose last pieces fit it, unless it starts where two
separators are next to each other. -/
theorem covers_of_rooted (rooted : pattern.toList.head? = some '/') (fits : FitsLast pattern path)
    (apart : ¬[separator, separator] <:+: subject path) : Covers pattern path := by
  obtain ⟨rest, start⟩ := List.head?_eq_some_iff.mp rooted
  have first : pattern.toList.splitOn '/' = [] :: rest.splitOn '/' := by
    rw [start]
    exact List.splitOn_append_cons_self [] rest
  obtain ⟨_, fits⟩ := fits
  have split := List.take_append_drop ((pieces path).length - (pattern.toList.splitOn '/').length) (pieces path)
  revert split fits
  generalize (pieces path).drop _ = last
  generalize (pieces path).take _ = front
  intro fits split
  by_cases all : front = []
  · rwa [Covers, ← split, all, List.nil_append]
  rw [first] at fits
  cases fits with
  | @cons _ piece _ more none others =>
    cases none
    have some : more ≠ [] := by
      rintro rfl
      exact List.splitOn_ne_nil _ _ (List.forall₂_nil_right_iff.mp others)
    obtain ⟨tail, same, tails⟩ := Glob.exists_of_splitOn_eq_append split.symm all (List.cons_ne_nil _ _)
    have tails : tail.splitOn separator = [[]] ++ more := tails
    obtain ⟨tail, rfl, _⟩ := Glob.exists_of_splitOn_eq_append tails nofun some
    exact absurd ⟨[separator].intercalate front, tail, by rw [same]; simp [List.intercalate]⟩ apart

/-- Without backslashes a canonical path has no two separators next to each other. -/
theorem apart_of_isCanonical (canonical : path.IsCanonical) (plain : '\\' ∉ path.text.toList) :
    ¬[separator, separator] <:+: subject path := by
  intro doubled
  have kept : path.text.toList.map (fun c => if c = '\\' then '/' else c) = path.text.toList := by
    refine (List.map_congr_left fun c member => if_neg ?_).trans (List.map_id _)
    rintro rfl
    exact plain member
  rw [subject, kept] at doubled
  refine path.not_repeated_normalize ?_
  rw [canonical.normalize_eq]
  exact Text.Utf8.repeated_of_encode doubled

section Compile

variable [Glob.Engine]

/-- A rule with a plain glob is refused at most for the size of the glob's program. -/
theorem compileRule_of_isPlain (kind pattern : String) (plain : Glob.IsPlain pattern.toList) :
    ((∃ compiled, compileRule ⟨kind, [pattern]⟩ = .ok compiled) ↔
        Glob.IsSmall (pattern.toList.map Glob.plainToken)) ∧
      ∀ error, compileRule ⟨kind, [pattern]⟩ = .error error → error = ⟨kind, pattern, .tooBig⟩ := by
  have reads := Glob.read_of_isPlain plain
  have shallow := (Glob.depth_plainToken pattern.toList).trans (by decide : 5 ≤ Glob.nestLimit)
  rw [compileRule_single]
  cases compiles : Glob.compile pattern.toList with
  | ok glob =>
    obtain ⟨reads', _, small⟩ := Glob.compile_eq_ok_iff.mp compiles
    obtain rfl := Except.ok.inj (reads.symm.trans reads')
    exact ⟨iff_of_true ⟨_, rfl⟩ small, nofun⟩
  | error refusal =>
    have big : ¬Glob.IsSmall (pattern.toList.map Glob.plainToken) := fun small => by
      rw [Glob.compile_eq_ok_iff.mpr ⟨reads, shallow, small⟩] at compiles
      contradiction
    rw [Glob.eq_tooBig_of_compile reads shallow compiles]
    exact ⟨iff_of_false nofun big, fun error same => (Except.error.inj same).symm⟩

/-- A rule with a plain glob matches what has last pieces that fit the segments. -/
theorem matches_plain_iff {kind : String} (plain : Glob.IsPlain pattern.toList) {compiled : Compiled}
    (compiles : compileRule ⟨kind, [pattern]⟩ = .ok compiled) :
    compiled.matches path ↔ FitsLast pattern path := by
  rw [matches_iff compiles, FitsLast, pieces, ← Glob.accepts_plain_iff]
  simp [Glob.read_of_isPlain plain]

/-- A rule with a plain glob is refused only for the size of the glob's program. Otherwise it
matches a path exactly if the segments of the glob fit the last pieces of the path one by one. If
the glob starts with a separator and the path is canonical, it covers the path, unless two
separators are next to each other; and in a canonical path they are so only by a backslash. -/
theorem plain_globs_fit_last_pieces (kind pattern : String) (plain : Glob.IsPlain pattern.toList) :
    ((∃ compiled, compileRule ⟨kind, [pattern]⟩ = .ok compiled) ↔
        Glob.IsSmall (pattern.toList.map Glob.plainToken)) ∧
      (∀ error, compileRule ⟨kind, [pattern]⟩ = .error error → error = ⟨kind, pattern, .tooBig⟩) ∧
      ∀ compiled, compileRule ⟨kind, [pattern]⟩ = .ok compiled → ∀ path : Path,
        (compiled.matches path ↔ FitsLast pattern path) ∧
          (path.IsCanonical → pattern.toList.head? = some '/' → compiled.matches path →
            ¬[separator, separator] <:+: subject path → Covers pattern path) ∧
          (path.IsCanonical → '\\' ∉ path.text.toList → ¬[separator, separator] <:+: subject path) := by
  obtain ⟨accepted, refused⟩ := compileRule_of_isPlain kind pattern plain
  refine ⟨accepted, refused, fun compiled compiles path =>
    ⟨matches_plain_iff plain compiles, ?_, apart_of_isCanonical⟩⟩
  intro _ rooted matched
  exact covers_of_rooted rooted ((matches_plain_iff plain compiles).mp matched)

end Compile

/-- A glob with both wildcards that starts with a separator covers a canonical path. -/
theorem plain_globs_of_rooted :
    ∃ compiled, compileRule ⟨"Text", ["/w/*.t?t"]⟩ = .ok compiled ∧ compiled.matches ⟨"/w/a b.txt"⟩ ∧
      Covers "/w/*.t?t" ⟨"/w/a b.txt"⟩ := by
  have plain : Glob.IsPlain "/w/*.t?t".toList := by decide +kernel
  have canonical : Path.IsCanonical ⟨"/w/a b.txt"⟩ :=
    Path.isCanonical_of_normalize_eq (by decide +kernel) (by decide +kernel)
  have small : Glob.IsSmall ("/w/*.t?t".toList.map Glob.plainToken) := by decide +kernel
  obtain ⟨accepted, _, decides⟩ := plain_globs_fit_last_pieces "Text" "/w/*.t?t" plain
  obtain ⟨compiled, compiles⟩ := accepted.mpr small
  obtain ⟨fits, covers, apart⟩ := decides compiled compiles ⟨"/w/a b.txt"⟩
  have matched : compiled.matches ⟨"/w/a b.txt"⟩ := matches_of_evaluated compiles (by decide +kernel)
  exact ⟨compiled, compiles, matched,
    covers canonical (by decide +kernel) matched (apart canonical (by decide +kernel))⟩

/-- A glob that starts with a separator can match a canonical path without covering it: a backslash puts a
separator behind another one. -/
theorem rooted_glob_below_root :
    ∃ compiled, compileRule ⟨"Text", ["/b"]⟩ = .ok compiled ∧ Glob.IsPlain "/b".toList ∧
      Path.IsCanonical ⟨"/a/\\b"⟩ ∧ compiled.matches ⟨"/a/\\b"⟩ ∧ ¬Covers "/b" ⟨"/a/\\b"⟩ := by
  have plain : Glob.IsPlain "/b".toList := by decide +kernel
  have small : Glob.IsSmall ("/b".toList.map Glob.plainToken) := by decide +kernel
  obtain ⟨compiled, compiles⟩ := (compileRule_of_isPlain "Text" "/b" plain).1.mpr small
  have matched : compiled.matches ⟨"/a/\\b"⟩ := matches_of_evaluated compiles (by decide +kernel)
  have longer : ("/b".toList.splitOn '/').length ≠ (pieces ⟨"/a/\\b"⟩).length := by decide +kernel
  exact ⟨compiled, compiles, plain, Path.isCanonical_of_normalize_eq (by decide +kernel) (by decide +kernel),
    matched, fun covers => longer covers.length_eq⟩

end Rules
end Isolate
