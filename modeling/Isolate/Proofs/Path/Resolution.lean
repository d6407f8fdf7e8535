import Isolate.Proofs.Path.Directory

/-!
# Where specifiers lead

A specifier is refused exactly if it is empty or starts with a scheme. Any other one names the place
that is reached from the directory of the importing file, or from the root, by following the
specifier piece by piece. Two specifiers name one path exactly if they lead to one place, and pieces
that lead nowhere or back may be put into a specifier without changing what it names.
-/

namespace Isolate.Path

/-- A place that a walk can come to: at names below the root, or at names behind steps up from wherever
the walk began. -/
inductive Spot where
  | below (names : List String)
  | beside (ups : Nat) (names : List String)
  deriving Repr, DecidableEq

namespace Spot

/-- One step up. Above the root is the root; where no name is left, the walk leaves the place where it
began. -/
def up : Spot → Spot
  | below names => below names.dropLast
  | beside ups [] => beside (ups + 1) []
  | beside ups names => beside ups names.dropLast

def down (name : String) : Spot → Spot
  | below names => below (names ++ [name])
  | beside ups names => beside ups (names ++ [name])

/-- Follow one piece of a path: no text and a single dot stay. -/
def follow (spot : Spot) (piece : List Char) : Spot :=
  if piece = [] ∨ piece = ['.'] then spot
  else if piece = ['.', '.'] then spot.up
  else spot.down (String.ofList piece)

def walk (spot : Spot) (p : Path) : Spot :=
  p.pieces.foldl follow (if p.isAbsolute then below [] else spot)

/-- The path to a place: one separator between names, and none at the end. -/
def path : Spot → Path
  | below names => ⟨"/" ++ "/".intercalate names⟩
  | beside ups names => ⟨"/".intercalate (List.replicate ups ".." ++ names)⟩

end Spot

/-- The place that a specifier leads to, from the directory of the importing file. -/
def destination (referrer : Path) (specifier : String) : Spot :=
  ((Spot.beside 0 []).walk referrer.directory).walk ⟨specifier⟩

/-- A text starts with a scheme: a letter, at least one more letter, digit, `+`, `-` or `.`, and a
colon. -/
def StartsWithScheme (specifier : List Char) : Prop :=
  ∃ letter more rest, specifier = letter :: more ++ ':' :: rest ∧ letter.isAlpha ∧ more ≠ [] ∧
    ∀ c ∈ more, c.isAlphanum ∨ c ∈ ['+', '-', '.']

theorem isSchemeChar_iff {c : Char} : isSchemeChar c ↔ c.isAlphanum ∨ c ∈ ['+', '-', '.'] := by
  simp [isSchemeChar, or_assoc]

theorem hasScheme_of_notMem {specifier : List Char} (clear : ':' ∉ specifier) :
    hasScheme specifier = false := by
  have all : ∀ c ∈ specifier, decide (c ≠ ':') := by
    intro c member
    apply decide_eq_true
    rintro rfl
    exact clear member
  have nothing : specifier.dropWhile (· ≠ ':') = [] := by
    have dropped : (specifier ++ []).dropWhile (· ≠ ':') = [].dropWhile (· ≠ ':') :=
      List.dropWhile_append_of_pos all
    rwa [List.append_nil] at dropped
  rw [hasScheme, nothing]
  rfl

/-- What stands in front of the first colon tells whether it is a scheme. -/
theorem hasScheme_append {scheme : List Char} (clear : ':' ∉ scheme) (rest : List Char) :
    hasScheme (scheme ++ ':' :: rest) ↔
      1 < scheme.length ∧ (∃ letter more, scheme = letter :: more ∧ letter.isAlpha) ∧
        ∀ c ∈ scheme, isSchemeChar c := by
  have all : ∀ c ∈ scheme, decide (c ≠ ':') := by
    intro c member
    apply decide_eq_true
    rintro rfl
    exact clear member
  have taken : (scheme ++ ':' :: rest).takeWhile (· ≠ ':') = scheme := by
    rw [List.takeWhile_append_of_pos all]
    simp
  have dropped : (scheme ++ ':' :: rest).dropWhile (· ≠ ':') = ':' :: rest := by
    rw [List.dropWhile_append_of_pos all]
    simp
  rw [hasScheme, taken, dropped]
  cases scheme with
  | nil => simp
  | cons letter more =>
    simp [and_assoc]

theorem hasScheme_iff {specifier : List Char} : hasScheme specifier ↔ StartsWithScheme specifier := by
  have clear {letter : Char} {more : List Char} (chars : ∀ c ∈ letter :: more, isSchemeChar c) :
      ':' ∉ letter :: more := fun member => absurd (chars _ member) (by decide)
  constructor
  · intro h
    by_cases colon : ':' ∈ specifier
    · obtain ⟨scheme, rest, rfl, apart⟩ := List.eq_append_cons_of_mem colon
      obtain ⟨long, ⟨letter, more, rfl, alpha⟩, chars⟩ := (hasScheme_append apart rest).mp h
      refine ⟨letter, more, rest, rfl, alpha, ?_, fun c member =>
        isSchemeChar_iff.mp (chars c (List.mem_cons_of_mem _ member))⟩
      rintro rfl
      exact absurd long (by simp)
    · rw [hasScheme_of_notMem colon] at h
      contradiction
  · rintro ⟨letter, more, rest, rfl, alpha, some, chars⟩
    have all : ∀ c ∈ letter :: more, isSchemeChar c := by
      intro c member
      rcases List.mem_cons.mp member with rfl | member
      · exact isSchemeChar_iff.mpr (.inl (by rw [Char.isAlphanum, alpha]; rfl))
      · exact isSchemeChar_iff.mpr (chars c member)
    have long : 1 < (letter :: more).length := by
      have positive := List.length_pos_of_ne_nil some
      rw [List.length_cons]
      omega
    exact (hasScheme_append (clear all) rest).mpr ⟨long, ⟨letter, more, rfl, alpha⟩, all⟩

instance (specifier : List Char) : Decidable (StartsWithScheme specifier) :=
  decidable_of_iff _ hasScheme_iff

/-- Nothing behind a separator belongs to a scheme. -/
theorem hasScheme_append_slash (front back : List Char) :
    hasScheme (front ++ '/' :: back) = hasScheme front := by
  rw [Bool.eq_iff_iff]
  by_cases colon : ':' ∈ front
  · obtain ⟨scheme, rest, rfl, apart⟩ := List.eq_append_cons_of_mem colon
    rw [List.append_assoc, List.cons_append, hasScheme_append apart, hasScheme_append apart]
  · rw [hasScheme_of_notMem colon]
    refine iff_of_false (fun h => ?_) Bool.false_ne_true
    by_cases later : ':' ∈ front ++ '/' :: back
    · obtain ⟨scheme, rest, same, apart⟩ := List.eq_append_cons_of_mem later
      rw [same, hasScheme_append apart] at h
      -- The scheme would reach over the separator.
      have within : '/' ∈ scheme := by
        rcases List.append_eq_append_iff.mp same with ⟨more, whole, begun⟩ | ⟨more, whole, begun⟩
        · cases more with
          | nil => simp at begun
          | cons c more =>
            obtain ⟨rfl, _⟩ := List.cons.inj begun
            rw [whole]
            simp
        · cases more with
          | nil => simp at begun
          | cons c more =>
            obtain ⟨rfl, _⟩ := List.cons.inj begun
            exact absurd (by rw [whole]; simp) colon
      exact absurd (h.2.2 _ within) (by decide)
    · rw [hasScheme_of_notMem later] at h
      contradiction

namespace Spot

def stack : Spot → List Component
  | below names => (names.map .normal).reverse ++ [.root]
  | beside ups names => (names.map .normal).reverse ++ List.replicate ups .parent

theorem stack_down (name : String) (spot : Spot) : (spot.down name).stack = .normal name :: spot.stack := by
  cases spot <;> simp [down, stack]

/-- A step up undoes a step down. -/
theorem up_down (name : String) (spot : Spot) : (spot.down name).up = spot := by
  cases spot with
  | below names => simp [up, down]
  | beside ups names =>
    cases names with
    | nil => rfl
    | cons first rest =>
      rw [down, List.cons_append, up, ← List.cons_append, List.dropLast_concat]
      nofun

theorem stack_up (spot : Spot) : spot.up.stack = step spot.stack .parent := by
  -- Either no name is left, or the place was reached by a step down.
  have down (name : String) (before : Spot) :
      (before.down name).up.stack = step (before.down name).stack .parent := by
    rw [up_down, stack_down]
    rfl
  cases spot with
  | below names =>
    rcases names.eq_nil_or_concat with rfl | ⟨front, name, rfl⟩
    · rfl
    · exact List.concat_eq_append ▸ down name (below front)
  | beside ups names =>
    rcases names.eq_nil_or_concat with rfl | ⟨front, name, rfl⟩
    · cases ups <;> rfl
    · exact List.concat_eq_append ▸ down name (beside ups front)

theorem follow_of_proper {name : String} (proper : name ∉ ["", ".", ".."]) (spot : Spot) :
    spot.follow name.toList = spot.down name := by
  have apart (other : String) (member : other ∈ ["", ".", ".."]) : name.toList ≠ other.toList :=
    fun same => proper (String.toList_injective same ▸ member)
  have empty : name.toList ≠ [] := apart "" (by simp)
  have dot : name.toList ≠ ['.'] := apart "." (by simp)
  have dots : name.toList ≠ ['.', '.'] := apart ".." (by simp)
  rw [follow, if_neg (not_or.mpr ⟨empty, dot⟩), if_neg dots, String.ofList_toList]

/-- To follow a piece is to take the component that it stands for, if it stands for one. -/
theorem stack_follow (spot : Spot) (piece : List Char) :
    (spot.follow piece).stack = (Component.ofPiece? piece).toList.foldl step spot.stack := by
  rw [follow, Component.ofPiece?]
  split
  · rfl
  · split
    · exact stack_up spot
    · exact stack_down _ spot

theorem stack_foldl_follow (pieces : List (List Char)) (spot : Spot) :
    (pieces.foldl follow spot).stack =
      (pieces.filterMap Component.ofPiece?).foldl step spot.stack := by
  induction pieces generalizing spot with
  | nil => rfl
  | cons piece rest ih =>
    rw [List.foldl_cons, ih, stack_follow, List.filterMap_cons]
    cases Component.ofPiece? piece <;> rfl

/-- A walk takes the components of a path. -/
theorem stack_walk (spot : Spot) (p : Path) :
    (spot.walk p).stack = p.inner.foldl step (if p.isAbsolute then [.root] else spot.stack) := by
  rw [walk, stack_foldl_follow, inner]
  split <;> rfl

def ofStack (walked : List Component) : Spot :=
  let names := (walked.filterMap fun | .normal name => some name | _ => none).reverse
  if .root ∈ walked then below names else beside (walked.count .parent) names

theorem ofStack_stack (spot : Spot) : ofStack spot.stack = spot := by
  have named (names : List String) : (names.map Component.normal).filterMap
      (fun | .normal name => some name | _ => none) = names := by
    rw [List.filterMap_map]
    exact List.filterMap_some
  cases spot with
  | below names => simp [ofStack, stack, named]
  | beside ups names => simp [ofStack, stack, named, List.count_eq_zero]

/-- Places are told apart by their components. -/
theorem stack_injective {a b : Spot} (h : a.stack = b.stack) : a = b := by
  rw [← ofStack_stack a, h, ofStack_stack]

theorem writeRelative_eq (components : List Component) :
    writeRelative components = ['/'].intercalate (components.map Component.toList) := by
  induction components with
  | nil => rfl
  | cons c rest ih =>
    cases rest with
    | nil => simp [writeRelative]
    | cons d rest =>
      rw [writeRelative, ih]
      · simp [List.intercalate]
      · exact List.cons_ne_nil d rest

/-- The path to a place is written from its components. -/
theorem path_eq (spot : Spot) : spot.path = ofComponents spot.stack.reverse := by
  have named (names : List String) :
      (names.map Component.normal).map Component.toList = names.map String.toList := by
    rw [List.map_map]
    rfl
  have text (text : List Char) (same : spot.path.text.toList = text) :
      spot.path = ⟨String.ofList text⟩ := by
    rw [← same, String.ofList_toList]
  apply text
  cases spot with
  | below names =>
    have shape : (below names).stack.reverse = .root :: names.map .normal := by simp [stack]
    rw [shape, write, writeRelative_eq, named]
    simp [path, String.toList_intercalate]
  | beside ups names =>
    have shape : (beside ups names).stack.reverse =
        List.replicate ups .parent ++ names.map .normal := by simp [stack]
    have relative : write (List.replicate ups .parent ++ names.map .normal) =
        writeRelative (List.replicate ups .parent ++ names.map .normal) := by
      cases ups with
      | zero => cases names <;> rfl
      | succ ups => rfl
    rw [shape, relative, writeRelative_eq, List.map_append, named]
    simp [path, String.toList_intercalate, Component.toList]

end Spot

/-- Where a walk ends is where the components of the directory and of the specifier lead. -/
theorem stack_destination (referrer : Path) (specifier : String) :
    (destination referrer specifier).stack = (Path.mk specifier).inner.foldl step
      (if (Path.mk specifier).isAbsolute then [.root]
      else (directoryOf referrer.components).foldl step []) := by
  have begun : ((Spot.beside 0 []).walk referrer.directory).stack =
      (directoryOf referrer.components).foldl step [] := by
    rw [Spot.stack_walk, ← components_directory, foldl_components, start]
    rfl
  rw [destination, Spot.stack_walk, begun]

theorem walked_destination (referrer : Path) (specifier : String) :
    Walked (destination referrer specifier).stack := by
  rw [stack_destination]
  apply walked_foldl_inner
  split
  · exact .root
  · rw [← components_directory, foldl_components]
    exact walked_foldl_inner (walked_start _) _

/-- A specifier that is not refused names the place that it leads to. -/
theorem resolve_of_accepted {referrer : Path} {specifier : String}
    (accepted : ¬(specifier = "" ∨ StartsWithScheme specifier.toList)) :
    referrer.resolve specifier = some (destination referrer specifier).path := by
  have plain : ¬(specifier.isEmpty || hasScheme specifier.toList) := by
    rwa [Bool.or_eq_true, String.isEmpty_iff, hasScheme_iff]
  rw [resolve, if_neg plain, Spot.path_eq, stack_destination]
  dsimp only
  split
  next absolute => rw [normalize_eq, start, if_pos absolute]
  next relative =>
    rw [Path.walk, List.foldl_append, foldl_components_of_relative relative]

theorem resolve_eq_none_iff {referrer : Path} {specifier : String} :
    referrer.resolve specifier = none ↔ specifier = "" ∨ StartsWithScheme specifier.toList := by
  constructor
  · intro refused
    by_contra accepted
    rw [resolve_of_accepted accepted] at refused
    contradiction
  · intro refused
    have unfit : specifier.isEmpty || hasScheme specifier.toList := by
      rwa [Bool.or_eq_true, String.isEmpty_iff, hasScheme_iff]
    rw [resolve, if_pos unfit]

theorem eq_path_of_resolve {referrer target : Path} {specifier : String}
    (h : referrer.resolve specifier = some target) :
    target = (destination referrer specifier).path := by
  have accepted : ¬(specifier = "" ∨ StartsWithScheme specifier.toList) := by
    rw [← @resolve_eq_none_iff referrer, h]
    nofun
  rw [resolve_of_accepted accepted] at h
  exact (Option.some.inj h).symm

theorem components_path_destination (referrer : Path) (specifier : String) :
    (destination referrer specifier).path.components =
      (destination referrer specifier).stack.reverse := by
  rw [Spot.path_eq, components_ofComponents (walked_destination referrer specifier)]

/-- Two paths that are named by specifiers are one if the specifiers lead to one place. -/
theorem same_iff_destination {referrer other target target' : Path} {specifier specifier' : String}
    (h : referrer.resolve specifier = some target) (h' : other.resolve specifier' = some target') :
    target.same target' ↔ destination referrer specifier = destination other specifier' := by
  rw [eq_path_of_resolve h, eq_path_of_resolve h', same, beq_iff_eq, components_path_destination,
    components_path_destination, List.reverse_inj]
  exact ⟨Spot.stack_injective, congrArg Spot.stack⟩

/-- Two specifiers that are both refused or both lead to one place name the same. -/
theorem resolve_congr_destination {referrer : Path} {specifier specifier' : String}
    (refused : specifier = "" ∨ StartsWithScheme specifier.toList ↔
      specifier' = "" ∨ StartsWithScheme specifier'.toList)
    (alike : destination referrer specifier = destination referrer specifier') :
    referrer.resolve specifier = referrer.resolve specifier' := by
  by_cases accepted : specifier = "" ∨ StartsWithScheme specifier.toList
  · rw [resolve_eq_none_iff.mpr accepted, resolve_eq_none_iff.mpr (refused.mp accepted)]
  · rw [resolve_of_accepted accepted, resolve_of_accepted (mt refused.mpr accepted), alike]

theorem toList_append_slash (front back : String) :
    (front ++ "/" ++ back).toList = front.toList ++ '/' :: back.toList := by simp

/-- A specifier with a separator is refused for what stands in front of it. -/
theorem refused_append_slash (front back : String) :
    front ++ "/" ++ back = "" ∨ StartsWithScheme (front ++ "/" ++ back).toList ↔
      StartsWithScheme front.toList := by
  have some : front ++ "/" ++ back ≠ "" := fun empty => by
    have nothing := congrArg String.toList empty
    simp at nothing
  rw [or_iff_right some, toList_append_slash, ← hasScheme_iff, hasScheme_append_slash, hasScheme_iff]

/-- A specifier with a separator is followed on one side of it and then on the other. -/
theorem walk_append_slash (spot : Spot) (front back : String) :
    spot.walk ⟨front ++ "/" ++ back⟩ = (Text.splitAtChar '/' back.toList).foldl Spot.follow
      ((Text.splitAtChar '/' front.toList).foldl Spot.follow
        (if front.toList.head?.getD '/' = '/' then .below [] else spot)) := by
  have begun : (Path.mk (front ++ "/" ++ back)).isAbsolute ↔ front.toList.head?.getD '/' = '/' := by
    rw [isAbsolute, toList_append_slash]
    cases front.toList <;> simp
  rw [Spot.walk, pieces, toList_append_slash, Text.splitAtChar_append_cons, List.foldl_append]
  by_cases absolute : front.toList.head?.getD '/' = '/'
  · rw [if_pos absolute, if_pos (begun.mpr absolute)]
  · rw [if_neg absolute, if_neg (mt begun.mp absolute)]

/-- What leads back to where it begins may be put in behind a separator. -/
theorem resolve_insert {middle : String} (referrer : Path) (front back : String)
    (idle : ∀ spot, (Text.splitAtChar '/' middle.toList).foldl Spot.follow spot = spot) :
    referrer.resolve (front ++ "/" ++ (middle ++ "/" ++ back)) =
      referrer.resolve (front ++ "/" ++ back) := by
  apply resolve_congr_destination
  · rw [refused_append_slash, refused_append_slash]
  · rw [destination, destination, walk_append_slash, walk_append_slash, toList_append_slash middle,
      Text.splitAtChar_append_cons, List.foldl_append, idle]

/-- A dot in front of a relative specifier that is not refused changes nothing. -/
theorem resolve_dot {referrer : Path} {specifier : String} (relative : ¬(Path.mk specifier).isAbsolute)
    (accepted : referrer.resolve specifier ≠ none) :
    referrer.resolve ("./" ++ specifier) = referrer.resolve specifier := by
  have text : "./" ++ specifier = "." ++ "/" ++ specifier := rfl
  have plain : ¬StartsWithScheme ".".toList := by
    rw [← hasScheme_iff]
    decide
  rw [ne_eq, resolve_eq_none_iff] at accepted
  rw [text]
  apply resolve_congr_destination
  · rw [refused_append_slash]
    exact iff_of_false plain accepted
  · have begun (spot : Spot) : spot.walk ⟨specifier⟩ =
        (Path.mk specifier).pieces.foldl Spot.follow spot := by rw [Spot.walk, if_neg relative]
    rw [destination, destination, walk_append_slash, begun]
    rfl

/-- A specifier is refused exactly if it is empty or starts with a scheme, and any other one names the
place that it leads to, whoever imports it. Two specifiers name one path exactly if they lead to one
place. A dot in front of a relative specifier, a separator that is doubled, and a name followed by a step
up change nothing. -/
theorem resolve_is_lexical (referrer : Path) :
    (∀ specifier : String,
        (referrer.resolve specifier = none ↔
            specifier = "" ∨ StartsWithScheme specifier.toList) ∧
          (¬(specifier = "" ∨ StartsWithScheme specifier.toList) →
            referrer.resolve specifier = some (destination referrer specifier).path)) ∧
      (∀ other specifier specifier' target target', referrer.resolve specifier = some target →
        other.resolve specifier' = some target' →
          (target = target' ↔ destination referrer specifier = destination other specifier') ∧
            (target.same target' ↔
              destination referrer specifier = destination other specifier')) ∧
        (∀ specifier, ¬(Path.mk specifier).isAbsolute → referrer.resolve specifier ≠ none →
          referrer.resolve ("./" ++ specifier) = referrer.resolve specifier) ∧
          ∀ front back : String,
            referrer.resolve (front ++ "//" ++ back) = referrer.resolve (front ++ "/" ++ back) ∧
              ∀ name : String, name ∉ ["", ".", ".."] → '/' ∉ name.toList →
                referrer.resolve (front ++ "/" ++ name ++ "/../" ++ back) =
                  referrer.resolve (front ++ "/" ++ back) := by
  refine ⟨fun specifier => ⟨resolve_eq_none_iff, resolve_of_accepted⟩,
    fun other specifier specifier' target target' h h' => ?_, fun specifier => resolve_dot,
    fun front back => ⟨?_, fun name proper clear => ?_⟩⟩
  · have same := same_iff_destination h h'
    refine ⟨⟨fun equal => same.mp ?_, fun alike => ?_⟩, same⟩
    · rw [equal, Path.same, beq_self_eq_true]
    · rw [eq_path_of_resolve h, eq_path_of_resolve h', alike]
  · have text : front ++ "//" ++ back = front ++ "/" ++ ("" ++ "/" ++ back) := by
      apply String.toList_injective
      simp
    rw [text, resolve_insert referrer front back fun _ => rfl]
  · have text : front ++ "/" ++ name ++ "/../" ++ back =
        front ++ "/" ++ (name ++ "/" ++ ".." ++ "/" ++ back) := by
      apply String.toList_injective
      simp
    rw [text, resolve_insert referrer front back fun spot => ?_]
    rw [toList_append_slash, Text.splitAtChar_append clear]
    change (spot.follow name.toList).up = spot
    rw [Spot.follow_of_proper proper, Spot.up_down]

/-- One file is named from two directories, and on detours. -/
theorem resolve_of_detours :
    (Path.mk "/w/src/index.mjs").resolve "c:/b.js" = some ⟨"/w/src/c:/b.js"⟩ ∧
      destination ⟨"/w/src/index.mjs"⟩ "../lib/b.js" = destination ⟨"/w/main.mjs"⟩ "lib/b.js" ∧
        (Path.mk "/w/src/index.mjs").resolve ("./" ++ "../lib/b.js") = some ⟨"/w/lib/b.js"⟩ ∧
          (Path.mk "/w/src/index.mjs").resolve ("../lib" ++ "/" ++ "x" ++ "/../" ++ "b.js") =
            some ⟨"/w/lib/b.js"⟩ := by
  obtain ⟨named, alike, dot, detour⟩ := resolve_is_lexical ⟨"/w/src/index.mjs"⟩
  have first : (Path.mk "/w/src/index.mjs").resolve "../lib/b.js" = some ⟨"/w/lib/b.js"⟩ := by
    decide +kernel
  have second : (Path.mk "/w/main.mjs").resolve "lib/b.js" = some ⟨"/w/lib/b.js"⟩ := by decide +kernel
  refine ⟨((named "c:/b.js").2 (by decide +kernel)).trans (by decide +kernel),
    (alike _ _ _ _ _ first second).1.mp rfl, (dot _ (by decide +kernel) (by simp [first])).trans first,
    ((detour "../lib" "b.js").2 "x" (by decide) (by decide)).trans first⟩

end Isolate.Path
