import Isolate.Proofs.Glob.Nesting
import Isolate.Rules

/-!
# Rules in order

Rule lists are read and tried from the front. Reading stops at the first glob that is refused, and a
path gets its kind from the first rule that matches it; so rules that are put behind others change
neither what the others refuse nor what they decide.
-/

namespace Isolate.Rules

variable {declared front back : List Rule} {rules first second : Rules} {error : Error} {path : Path}

/-- The rules behind others decide only where the others do not. -/
theorem classify_append (first second : Rules) (path : Path) :
    classify (first ++ second) path = (first.classify path).or (second.classify path) := by
  rw [classify, List.find?_append, Option.map_or]
  rfl

theorem classify_eq_none_iff :
    rules.classify path = none ↔ ¬∃ rule ∈ rules, rule.matches path := by
  rw [classify, Option.map_eq_none_iff, List.find?_eq_none]
  simp

/-- What a rule in front matches is decided as if there were no others, and the rest as if there were only
the others. -/
theorem classify_append_cases (first second : Rules) (path : Path) :
    ((∃ rule ∈ first, rule.matches path) →
        classify (first ++ second) path = first.classify path) ∧
      (¬(∃ rule ∈ first, rule.matches path) →
        classify (first ++ second) path = second.classify path) := by
  rw [← classify_eq_none_iff, classify_append]
  cases decided : first.classify path with
  | none => exact ⟨fun matched => absurd matched (classify_eq_none_iff.mp decided), fun _ => rfl⟩
  | some kind => exact ⟨fun _ => rfl, nofun⟩

/-- The declared globs in order, each with the kind of its rule. -/
def globs (declared : List Rule) : List (String × String) :=
  declared.flatMap fun rule => rule.patterns.map fun pattern => (rule.kind, pattern)

section Compile

variable [Glob.Engine]

def refusal? (glob : String × String) : Option Error :=
  match Glob.compile glob.2.toList with
  | .error refusal => some ⟨glob.1, glob.2, refusal⟩
  | .ok _ => none

/-- The first of some declared rules that matches a path. -/
def first? (declared : List Rule) (path : Path) : Option Rule :=
  declared.find? fun rule =>
    match compileRule rule with
    | .ok compiled => compiled.matches path
    | .error _ => false

theorem refusal?_eq_some_iff {kind pattern : String} :
    refusal? (kind, pattern) = some error ↔
      ∃ refusal, Glob.compile pattern.toList = .error refusal ∧ error = ⟨kind, pattern, refusal⟩ := by
  rw [refusal?]
  cases Glob.compile pattern.toList with
  | error refusal => simp [eq_comm]
  | ok glob => simp

theorem refusal?_eq_none_iff {glob : String × String} :
    refusal? glob = none ↔ ∃ tokens, Glob.compile glob.2.toList = .ok tokens := by
  rw [refusal?]
  cases Glob.compile glob.2.toList <;> simp

theorem compileGlobs_eq_error_iff {kind : String} {patterns : List String} :
    compileGlobs kind patterns = .error error ↔
      (patterns.map fun pattern => (kind, pattern)).findSome? refusal? = some error := by
  induction patterns with
  | nil => exact iff_of_false nofun nofun
  | cons pattern rest ih =>
    rw [compileGlobs, List.map_cons, List.findSome?_cons, refusal?]
    cases Glob.compile pattern.toList with
    | error refusal => simp
    | ok glob =>
      dsimp only
      rw [← ih]
      cases compileGlobs kind rest with
      | error other => rfl
      | ok globs => simp

theorem compileRule_eq_error_iff {rule : Rule} :
    compileRule rule = .error error ↔ (globs [rule]).findSome? refusal? = some error := by
  rw [globs, List.flatMap_singleton, ← compileGlobs_eq_error_iff, compileRule]
  cases compileGlobs rule.kind rule.patterns <;> simp

/-- Rules are refused for the first of their globs that is. -/
theorem compile_eq_error_iff :
    compile declared = .error error ↔ (globs declared).findSome? refusal? = some error := by
  induction declared with
  | nil => exact iff_of_false nofun nofun
  | cons rule rest ih =>
    have split : globs (rule :: rest) = globs [rule] ++ globs rest := by simp [globs]
    rw [compile, split, List.findSome?_append]
    cases read : compileRule rule with
    | error other =>
      rw [compileRule_eq_error_iff.mp read, Option.some_or]
      simp
    | ok compiled =>
      have fine : (globs [rule]).findSome? refusal? = none := by
        refine Option.eq_none_iff_forall_ne_some.mpr fun other refused => ?_
        rw [← compileRule_eq_error_iff, read] at refused
        contradiction
      rw [fine, Option.none_or, ← ih]
      cases compile rest <;> simp

/-- All declared globs in front of the one that rules are refused for are accepted. -/
theorem compile_eq_error_iff_first :
    compile declared = .error error ↔
      ∃ before kind pattern after refusal, globs declared = before ++ (kind, pattern) :: after ∧
        (∀ glob ∈ before, ∃ tokens, Glob.compile glob.2.toList = .ok tokens) ∧
          Glob.compile pattern.toList = .error refusal ∧ error = ⟨kind, pattern, refusal⟩ := by
  rw [compile_eq_error_iff, List.findSome?_eq_some_iff]
  constructor
  · rintro ⟨before, ⟨kind, pattern⟩, after, split, refused, fine⟩
    obtain ⟨refusal, refuses, rfl⟩ := refusal?_eq_some_iff.mp refused
    exact ⟨before, kind, pattern, after, refusal, split,
      fun glob member => refusal?_eq_none_iff.mp (fine glob member), refuses, rfl⟩
  · rintro ⟨before, kind, pattern, after, refusal, split, fine, refuses, rfl⟩
    exact ⟨before, (kind, pattern), after, split, refusal?_eq_some_iff.mpr ⟨refusal, refuses, rfl⟩,
      fun glob member => refusal?_eq_none_iff.mpr (fine glob member)⟩

/-- Rules are read one list after the other. -/
theorem compile_append (front back : List Rule) :
    compile (front ++ back) =
      match compile front with
      | .error error => .error error
      | .ok first => (compile back).map (first ++ ·) := by
  induction front with
  | nil => cases read : compile back <;> simp [compile, Except.map, read]
  | cons rule rest ih =>
    rw [List.cons_append, compile, compile, ih]
    cases compileRule rule with
    | error error => rfl
    | ok compiled =>
      cases compile rest with
      | error error => rfl
      | ok first => cases compile back <;> rfl

theorem compile_append_eq_ok_iff :
    compile (front ++ back) = .ok rules ↔
      ∃ first second, compile front = .ok first ∧ compile back = .ok second ∧
        rules = first ++ second := by
  rw [compile_append]
  cases compile front with
  | error error => simp
  | ok first =>
    cases compile back with
    | error error => simp [Except.map]
    | ok second => simp [Except.map, eq_comm]

theorem compile_append_eq_error_iff :
    compile (front ++ back) = .error error ↔
      compile front = .error error ∨
        (∃ first, compile front = .ok first) ∧ compile back = .error error := by
  rw [compile_append]
  cases compile front with
  | error error => simp
  | ok first => cases compile back <;> simp [Except.map]

theorem compile_of_isOk (fine : (compile declared).isOk) :
    compile declared = .ok ((compile declared).toOption.getD []) := by
  cases read : compile declared with
  | error error =>
    rw [read] at fine
    contradiction
  | ok rules => rfl

/-- The default rules can be refused only for the size of their programs. -/
theorem eq_tooBig_of_defaults (refuses : compile Rule.defaults = .error error) :
    error.refusal = .tooBig := by
  obtain ⟨before, kind, pattern, after, refusal, split, _, refused, rfl⟩ :=
    compile_eq_error_iff_first.mp refuses
  have each : ∀ glob ∈ globs Rule.defaults,
      (Glob.read glob.2.toList).toOption.any (Glob.depth · ≤ Glob.nestLimit) := by decide +kernel
  have shallow := each (kind, pattern) (split ▸ List.mem_append_right _ List.mem_cons_self)
  cases reads : Glob.read pattern.toList with
  | error fault => simp [reads, Except.toOption] at shallow
  | ok glob =>
    have shallow : Glob.depth glob ≤ Glob.nestLimit := by
      simpa [reads, Except.toOption] using shallow
    exact Glob.eq_tooBig_of_compile reads shallow refused

theorem kind_of_compileRule {rule : Rule} {compiled : Compiled}
    (read : compileRule rule = .ok compiled) : compiled.kind = .ofName rule.kind := by
  unfold compileRule at read
  split at read
  · contradiction
  · rw [← Except.ok.inj read]

/-- A path has the kind that the first declared rule with a matching glob names. -/
theorem classify_of_compile (compiled : compile declared = .ok rules) (path : Path) :
    rules.classify path = (first? declared path).map fun rule => .ofName rule.kind := by
  induction declared generalizing rules with
  | nil => exact Except.ok.inj compiled ▸ rfl
  | cons rule rest ih =>
    rw [compile] at compiled
    split at compiled
    next => contradiction
    next first read =>
      split at compiled
      next => contradiction
      next others compiled' =>
        rw [← Except.ok.inj compiled, classify, first?, List.find?_cons, List.find?_cons, read]
        dsimp only
        cases first.matches path with
        | true => exact congrArg some (kind_of_compileRule read)
        | false => exact ih compiled'

/-- A path has a supported kind if the first declared rule that matches it has the name of the kind. -/
theorem classify_eq_supported_iff (compiled : compile declared = .ok rules)
    {kind : Kind.Supported} :
    rules.classify path = some (.supported kind) ↔
      ∃ rule, first? declared path = some rule ∧ rule.kind = kind.name := by
  rw [classify_of_compile compiled, Option.map_eq_some_iff]
  refine exists_congr fun rule => and_congr_right fun _ => ⟨fun same => ?_, fun named => ?_⟩
  · rw [← Kind.name_ofName rule.kind, same, Kind.name]
  · rw [named, Kind.ofName_name]

/-- Two rule lists, one behind the other, are refused for the first glob of either that is refused,
and are otherwise tried one after the other. So a project's own rules decide as they do alone, and
the default rules decide the rest; these are refused at most for their size. -/
theorem lists_compose (front back : List Rule) :
    ((∃ rules, compile (front ++ back) = .ok rules) ↔
        (∃ first, compile front = .ok first) ∧ ∃ second, compile back = .ok second) ∧
      (∀ error, compile (front ++ back) = .error error ↔
        compile front = .error error ∨
          (∃ first, compile front = .ok first) ∧ compile back = .error error) ∧
      (∀ error, compile (front ++ back) = .error error ↔
        ∃ before kind pattern after refusal,
          globs (front ++ back) = before ++ (kind, pattern) :: after ∧
            (∀ glob ∈ before, ∃ tokens, Glob.compile glob.2.toList = .ok tokens) ∧
            Glob.compile pattern.toList = .error refusal ∧ error = ⟨kind, pattern, refusal⟩) ∧
      (∀ first second rules, compile front = .ok first → compile back = .ok second →
        compile (front ++ back) = .ok rules → ∀ path,
          rules.classify path =
            match first.classify path with
            | some kind => some kind
            | none => second.classify path) ∧
      (∀ error, compile Rule.defaults = .error error → error.refusal = .tooBig) ∧
      ∀ defaults, compile Rule.defaults = .ok defaults → ∀ project : Project,
        (∀ error, compile project.effectiveRules = .error error ↔ compile project.rules = .error error) ∧
          ∀ own, compile project.rules = .ok own →
            ∃ rules, compile project.effectiveRules = .ok rules ∧ ∀ path,
              ((∃ rule ∈ own, rule.matches path) → rules.classify path = own.classify path) ∧
                (¬(∃ rule ∈ own, rule.matches path) →
                  rules.classify path = defaults.classify path) := by
  refine ⟨⟨fun ⟨rules, all_ok⟩ => ?_, fun ⟨⟨first, front_ok⟩, second, back_ok⟩ => ?_⟩,
    fun error => compile_append_eq_error_iff, fun error => compile_eq_error_iff_first,
    fun first second rules front_ok back_ok all_ok path => ?_,
    fun error => eq_tooBig_of_defaults,
    fun defaults defaults_ok project => ⟨fun error => ?_, fun own own_ok => ?_⟩⟩
  · obtain ⟨first, second, front_ok, back_ok, _⟩ := compile_append_eq_ok_iff.mp all_ok
    exact ⟨⟨first, front_ok⟩, second, back_ok⟩
  · exact ⟨first ++ second, compile_append_eq_ok_iff.mpr ⟨first, second, front_ok, back_ok, rfl⟩⟩
  · obtain ⟨first', second', front_ok', back_ok', rfl⟩ := compile_append_eq_ok_iff.mp all_ok
    obtain rfl := Except.ok.inj (front_ok.symm.trans front_ok')
    obtain rfl := Except.ok.inj (back_ok.symm.trans back_ok')
    rw [classify_append]
    cases first.classify path <;> rfl
  · rw [Project.effectiveRules, compile_append_eq_error_iff, defaults_ok]
    simp
  · refine ⟨own ++ defaults, ?_, classify_append_cases own defaults⟩
    exact compile_append_eq_ok_iff.mpr ⟨own, defaults, own_ok, defaults_ok, rfl⟩

end Compile

/-- A project that takes some of the files that the default rules would take. -/
def overlapping : Project := { entry := "index.mjs", rules := [⟨"Text", ["lib/*.js"]⟩] }

/-- Its rule decides for the files that it matches, and a default rule for another one. -/
theorem lists_compose_of_overlap :
    ∃ rules, compile overlapping.effectiveRules = .ok rules ∧
      rules.classify ⟨"/w/lib/a.js"⟩ = some (.supported .text) ∧
      rules.classify ⟨"/w/a.js"⟩ = some (.supported .commonJS) := by
  let own : Rules := (compile overlapping.rules).toOption.getD []
  let defaults : Rules := (compile Rule.defaults).toOption.getD []
  have own_ok : compile overlapping.rules = .ok own := compile_of_isOk (by decide +kernel)
  have defaults_ok : compile Rule.defaults = .ok defaults := compile_of_isOk (by decide +kernel)
  obtain ⟨rules, all_ok, decides⟩ :=
    ((lists_compose [] []).2.2.2.2.2 defaults defaults_ok overlapping).2 own own_ok
  have taken : ∃ rule ∈ own, rule.matches ⟨"/w/lib/a.js"⟩ := by decide +kernel
  have left : ¬∃ rule ∈ own, rule.matches ⟨"/w/a.js"⟩ := by decide +kernel
  refine ⟨rules, all_ok, ?_, ?_⟩
  · rw [(decides _).1 taken]
    decide +kernel
  · rw [(decides _).2 left]
    decide +kernel

end Isolate.Rules
