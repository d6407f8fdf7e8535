import Isolate.Proofs.Glob.Leading
import Isolate.Proofs.Rules.Order
import Isolate.Proofs.Rules.Tails

/-!
# Leading components in rules

Two globs are alike if they accept the same texts. Then one decides as the other does in any rule of
any list of rules. A glob and the same glob behind `**/` are alike and can be read alike, but the
second one has the longer expression: where the first is at the limit of what is accepted, the
second is beyond it.
-/

namespace Isolate.Rules

def Alike (one two : String) : Prop :=
  ∀ glob other, Glob.read one.toList = .ok glob → Glob.read two.toList = .ok other →
    ∀ text, Glob.accepts glob text = Glob.accepts other text

/-- A rule with a glob among others. -/
def withGlob (kind : String) (before after : List String) (pattern : String) : Rule :=
  ⟨kind, before ++ pattern :: after⟩

/-- A refusal of a glob behind leading components where the glob itself is accepted: the expression
with the components is too big, or it is too deep by one level. -/
def Overflows (pattern : String) (refusal : Glob.Refusal) : Prop :=
  refusal = .tooBig ∨
    (∃ expression span, refusal = .tooDeep expression span) ∧
      ∃ glob, Glob.read pattern.toList = .ok glob ∧ Glob.depth glob = Glob.nestLimit

variable {rule : Rule} {declared front back : List Rule} {rules others : Rules}
  {one two pattern kind : String} {before after : List String} {compiled other : Compiled}
  {refusal : Glob.Refusal}

theorem globs_withGlob :
    globs (front ++ withGlob kind before after pattern :: back) =
      (globs front ++ before.map (kind, ·)) ++ (kind, pattern) :: (after.map (kind, ·) ++ globs back) := by
  simp [globs, withGlob]

theorem isOk_iff_exists {ε α : Type} {result : Except ε α} :
    result.isOk ↔ ∃ value, result = .ok value := by
  cases result <;> simp [Except.isOk, Except.toBool]

theorem toList_leading : ("**/" ++ pattern).toList = '*' :: '*' :: '/' :: pattern.toList := by
  rw [String.toList_append]
  rfl

/-- A glob is read behind leading components as it is alone, or it is accepted and gets one more token. -/
theorem read_leading_cases (some : pattern ≠ "") :
    Glob.read ("**/" ++ pattern).toList = Glob.read pattern.toList ∨
      ∃ bare, Glob.read pattern.toList = .ok bare ∧
        Glob.read ("**/" ++ pattern).toList = .ok (.componentsFirst :: bare) ∧
          bare ≠ [] ∧ bare ≠ [.componentsFirst] := by
  have some : pattern.toList ≠ [] := fun none => some (String.toList_eq_nil_iff.mp none)
  rw [toList_leading]
  rcases Glob.Reading.read_led some with same | ⟨same, others⟩
  · exact .inl same
  · cases reads : Glob.read pattern.toList with
    | error fault => exact .inl (by rw [same, reads]; rfl)
    | ok bare => exact .inr ⟨bare, rfl, by rw [same, reads]; rfl, others bare reads⟩

theorem alike_leading (some : pattern ≠ "") : Alike ("**/" ++ pattern) pattern := by
  intro led bare reads reads' text
  rcases read_leading_cases some with same | ⟨_, alone, behind, nonempty, more⟩
  · rw [reads, reads'] at same
    rw [Except.ok.inj same]
  · rw [reads] at behind
    rw [reads'] at alone
    obtain rfl := Except.ok.inj behind
    obtain rfl := Except.ok.inj alone
    exact Glob.accepts_componentsFirst nonempty more

section Compile

variable [Glob.Engine]

theorem compile_isOk_iff :
    (∃ rules, compile declared = .ok rules) ↔
      ∀ glob ∈ globs declared, ∃ tokens, Glob.compile glob.2.toList = .ok tokens := by
  simp only [← refusal?_eq_none_iff]
  rw [← List.findSome?_eq_none_iff]
  cases compiles : compile declared with
  | error error => simp [compile_eq_error_iff.mp compiles]
  | ok rules =>
    refine iff_of_true ⟨rules, rfl⟩ (Option.eq_none_iff_forall_ne_some.mpr fun error found => ?_)
    rw [← compile_eq_error_iff, compiles] at found
    contradiction

theorem compile_cons_eq_ok_iff :
    compile (rule :: back) = .ok rules ↔
      ∃ first last, compileRule rule = .ok first ∧ compile back = .ok last ∧ rules = first :: last := by
  rw [compile]
  cases compileRule rule with
  | error error => simp
  | ok first => cases compile back <;> simp [eq_comm]

/-- Rules with a glob in them stay accepted if an accepted glob takes its place. -/
theorem compile_withGlob_of_ok
    (accepted : ∃ rules, compile (front ++ withGlob kind before after one :: back) = .ok rules)
    (fine : ∃ glob, Glob.compile two.toList = .ok glob) :
    ∃ rules, compile (front ++ withGlob kind before after two :: back) = .ok rules := by
  rw [compile_isOk_iff, globs_withGlob, List.forall_mem_append, List.forall_mem_cons] at accepted ⊢
  exact ⟨accepted.1, fine, accepted.2.2⟩

/-- They are refused for a refused glob that takes its place. -/
theorem compile_withGlob_of_error
    (accepted : ∃ rules, compile (front ++ withGlob kind before after one :: back) = .ok rules)
    (refuses : Glob.compile two.toList = .error refusal) :
    compile (front ++ withGlob kind before after two :: back) = .error ⟨kind, two, refusal⟩ := by
  rw [compile_isOk_iff, globs_withGlob, List.forall_mem_append] at accepted
  exact compile_eq_error_iff_first.mpr
    ⟨_, kind, two, _, refusal, globs_withGlob, accepted.1, refuses, rfl⟩

theorem exists_of_compile
    (accepted : ∃ rules, compile (front ++ withGlob kind before after pattern :: back) = .ok rules) :
    ∃ glob, Glob.compile pattern.toList = .ok glob := by
  rw [compile_isOk_iff, globs_withGlob] at accepted
  exact accepted (kind, pattern) (List.mem_append_right _ List.mem_cons_self)

theorem exists_of_compileRule (accepted : ∃ compiled, compileRule ⟨kind, [pattern]⟩ = .ok compiled) :
    ∃ glob, Glob.compile pattern.toList = .ok glob := by
  obtain ⟨compiled, compiles⟩ := accepted
  rw [compileRule_single] at compiles
  cases found : Glob.compile pattern.toList with
  | error refusal =>
    rw [found] at compiles
    contradiction
  | ok glob => exact ⟨glob, rfl⟩

theorem Alike.matches_eq (alike : Alike one two) (kind : String) (before after : List String)
    (first : compileRule (withGlob kind before after one) = .ok compiled)
    (second : compileRule (withGlob kind before after two) = .ok other) (path : Path) :
    compiled.matches path = other.matches path := by
  have reads {pattern : String} {compiled : Compiled}
      (compiles : compileRule (withGlob kind before after pattern) = .ok compiled) :
      ∃ glob, Glob.read pattern.toList = .ok glob := by
    have single : compile ([] ++ withGlob kind before after pattern :: []) = .ok [compiled] := by
      simp [compile, compiles]
    obtain ⟨glob, accepts⟩ := exists_of_compile ⟨_, single⟩
    exact ⟨glob, Glob.read_of_compile accepts⟩
  obtain ⟨glob, read⟩ := reads first
  obtain ⟨glob', read'⟩ := reads second
  rw [Bool.eq_iff_iff, matches_iff first, matches_iff second]
  simp [withGlob, or_and_right, exists_or, read, read', alike glob glob' read read']

theorem Alike.classify_eq (alike : Alike one two)
    (first : compile (front ++ withGlob kind before after one :: back) = .ok rules)
    (second : compile (front ++ withGlob kind before after two :: back) = .ok others) (path : Path) :
    rules.classify path = others.classify path := by
  obtain ⟨start, _, starts, rest, rfl⟩ := compile_append_eq_ok_iff.mp first
  obtain ⟨start', _, starts', rest', rfl⟩ := compile_append_eq_ok_iff.mp second
  obtain ⟨rule, last, read, lasts, rfl⟩ := compile_cons_eq_ok_iff.mp rest
  obtain ⟨rule', last', read', lasts', rfl⟩ := compile_cons_eq_ok_iff.mp rest'
  obtain rfl := Except.ok.inj (starts.symm.trans starts')
  obtain rfl := Except.ok.inj (lasts.symm.trans lasts')
  have kinds : rule.kind = rule'.kind := (kind_of_compileRule read).trans (kind_of_compileRule read').symm
  rw [classify_append, classify_append]
  congr 1
  rw [classify, classify, List.find?_cons, List.find?_cons, alike.matches_eq kind before after read read' path]
  cases rule'.matches path with
  | true => exact congrArg some kinds
  | false => rfl

/-- Behind leading components a glob is accepted only if it is accepted alone. -/
theorem exists_of_compile_leading (some : pattern ≠ "") (grows : Glob.Engine.Grows)
    (accepted : ∃ led, Glob.compile ("**/" ++ pattern).toList = .ok led) :
    ∃ bare, Glob.compile pattern.toList = .ok bare := by
  obtain ⟨led, accepted⟩ := accepted
  obtain ⟨reads, shallow, small⟩ := Glob.compile_eq_ok_iff.mp accepted
  rcases read_leading_cases some with same | ⟨bare, alone, behind, nonempty, more⟩
  · exact ⟨led, Glob.compile_eq_ok_iff.mpr ⟨same ▸ reads, shallow, small⟩⟩
  · rw [reads] at behind
    obtain rfl := Except.ok.inj behind
    have deeper := (Glob.depth_componentsFirst nonempty more).1
    have smaller : Glob.IsSmall bare := (grows bare).trans small
    exact ⟨bare, Glob.compile_eq_ok_iff.mpr ⟨alone, deeper.trans shallow, smaller⟩⟩

/-- An accepted glob is accepted behind leading components too, unless its expression overflows. -/
theorem compile_leading (some : pattern ≠ "")
    (accepted : ∃ bare, Glob.compile pattern.toList = .ok bare) :
    (∃ led, Glob.compile ("**/" ++ pattern).toList = .ok led) ∨
      ∃ refusal, Overflows pattern refusal ∧
        Glob.compile ("**/" ++ pattern).toList = .error refusal := by
  obtain ⟨bare, accepted⟩ := accepted
  obtain ⟨reads, shallow, small⟩ := Glob.compile_eq_ok_iff.mp accepted
  rcases read_leading_cases some with same | ⟨bare', alone, behind, nonempty, more⟩
  · exact .inl ⟨bare, Glob.compile_eq_ok_iff.mpr ⟨same.trans reads, shallow, small⟩⟩
  · rw [reads] at alone
    obtain rfl := Except.ok.inj alone
    have limited := (Glob.depth_componentsFirst nonempty more).2
    rcases Glob.compile_cases ("**/" ++ pattern).toList with ⟨fault, unread, _⟩ | ⟨led, reads', outcome⟩
    · rw [behind] at unread
      contradiction
    · rw [behind] at reads'
      obtain rfl := Except.ok.inj reads'
      rcases outcome with ⟨deep, span, refuses⟩ | ⟨_, _, refuses⟩ | ⟨_, _, accepts⟩
      · -- one level more is too many only for an expression that has all of them
        have limit : Glob.depth bare = Glob.nestLimit := by
          unfold Glob.nestLimit at *
          omega
        exact .inr ⟨_, .inr ⟨⟨_, span, rfl⟩, bare, reads, limit⟩, refuses⟩
      · exact .inr ⟨_, .inl rfl, refuses⟩
      · exact .inl ⟨_, accepts⟩

/-- A glob behind `**/` is accepted only if it is accepted alone, and an accepted glob is accepted
behind `**/` too unless its expression overflows there. Where both are accepted they match the same
paths: in a rule of their own, and in any rule of any list of rules. -/
theorem leading_components_redundant (pattern : String) (some : pattern ≠ "") (kind : String) :
    (Glob.Engine.Grows → (∃ led, compileRule ⟨kind, ["**/" ++ pattern]⟩ = .ok led) →
        ∃ bare, compileRule ⟨kind, [pattern]⟩ = .ok bare) ∧
      ((∃ bare, compileRule ⟨kind, [pattern]⟩ = .ok bare) →
        (∃ led, compileRule ⟨kind, ["**/" ++ pattern]⟩ = .ok led) ∨
          ∃ refusal, Overflows pattern refusal ∧
            compileRule ⟨kind, ["**/" ++ pattern]⟩ = .error ⟨kind, "**/" ++ pattern, refusal⟩) ∧
      (∀ led bare, compileRule ⟨kind, ["**/" ++ pattern]⟩ = .ok led →
        compileRule ⟨kind, [pattern]⟩ = .ok bare → ∀ path, led.matches path = bare.matches path) ∧
      ∀ front back before after,
        (Glob.Engine.Grows →
          (∃ led, compile (front ++ withGlob kind before after ("**/" ++ pattern) :: back) = .ok led) →
            ∃ bare, compile (front ++ withGlob kind before after pattern :: back) = .ok bare) ∧
          ((∃ bare, compile (front ++ withGlob kind before after pattern :: back) = .ok bare) →
            (∃ led, compile (front ++ withGlob kind before after ("**/" ++ pattern) :: back) = .ok led) ∨
              ∃ refusal, Overflows pattern refusal ∧
                compile (front ++ withGlob kind before after ("**/" ++ pattern) :: back) =
                  .error ⟨kind, "**/" ++ pattern, refusal⟩) ∧
          ∀ led bare,
            compile (front ++ withGlob kind before after ("**/" ++ pattern) :: back) = .ok led →
              compile (front ++ withGlob kind before after pattern :: back) = .ok bare →
                ∀ path, led.classify path = bare.classify path := by
  have alike := alike_leading some
  refine ⟨fun grows accepted => ?_, fun accepted => ?_, fun led bare => alike.matches_eq kind [] [],
    fun front back before after => ⟨fun grows accepted => ?_, fun accepted => ?_,
      fun led bare => alike.classify_eq⟩⟩
  · obtain ⟨bare, fine⟩ := exists_of_compile_leading some grows (exists_of_compileRule accepted)
    exact ⟨_, by rw [compileRule_single, fine]⟩
  · rcases compile_leading some (exists_of_compileRule accepted) with
      ⟨led, fine⟩ | ⟨refusal, overflows, refuses⟩
    · exact .inl ⟨_, by rw [compileRule_single, fine]⟩
    · exact .inr ⟨refusal, overflows, by rw [compileRule_single, refuses]⟩
  · have bare := exists_of_compile_leading some grows (exists_of_compile accepted)
    exact compile_withGlob_of_ok accepted bare
  · rcases compile_leading some (exists_of_compile accepted) with fine | ⟨refusal, overflows, refuses⟩
    · exact .inl (compile_withGlob_of_ok accepted fine)
    · exact .inr ⟨refusal, overflows, compile_withGlob_of_error accepted refuses⟩

end Compile

/-- In a rule of its own the glob `*.mjs` decides as it does behind `**/`, for every path. -/
theorem leading_components_of_extension :
    ∃ led bare, compile [⟨"ESModule", ["**/*.mjs"]⟩] = .ok led ∧
      compile [⟨"ESModule", ["*.mjs"]⟩] = .ok bare ∧ (∀ path, led.classify path = bare.classify path) ∧
        led.classify ⟨"/w/a.mjs"⟩ = some (.supported .esModule) := by
  have led_fine : (compile [⟨"ESModule", ["**/*.mjs"]⟩]).isOk := by decide +kernel
  have led_ok := compile_of_isOk led_fine
  obtain ⟨back, _, same⟩ := (leading_components_redundant "*.mjs" (by decide) "ESModule").2.2.2 [] [] [] []
  obtain ⟨bare, bare_ok⟩ := back Glob.Engine.grows_standard ⟨_, led_ok⟩
  exact ⟨_, bare, led_ok, bare_ok, same _ _ led_ok bare_ok, by decide +kernel⟩

/-- A letter in as many groups as an expression can hold. -/
def crowded : List Char := List.replicate 248 '{' ++ 'a' :: List.replicate 248 '}'

/-- Behind `**/` there is one group too many. -/
theorem leading_components_too_deep :
    String.ofList crowded ≠ "" ∧ (∃ bare, compileRule ⟨"Text", [String.ofList crowded]⟩ = .ok bare) ∧
      ¬∃ led, compileRule ⟨"Text", ["**/" ++ String.ofList crowded]⟩ = .ok led := by
  have fine : (Glob.compile crowded).isOk := by decide +kernel
  have refused : (Glob.compile ('*' :: '*' :: '/' :: crowded)).isOk = false := by decide +kernel
  refine ⟨by decide +kernel, ?_, fun accepted => ?_⟩
  · obtain ⟨glob, accepts⟩ := isOk_iff_exists.mp fine
    exact ⟨_, by rw [compileRule_single, String.toList_ofList, accepts]⟩
  · have accepted := exists_of_compileRule accepted
    rw [toList_leading, String.toList_ofList] at accepted
    exact Bool.false_ne_true (refused.symm.trans (isOk_iff_exists.mpr accepted))

end Isolate.Rules
