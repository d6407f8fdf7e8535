import Isolate.Proofs.Glob.Nesting
import Isolate.Rules

/-!
# Globs match tails

A glob matches a path by a search for its widened expression. That succeeds exactly if its anchored
expression takes the whole text of the path or what stands behind one of the separators, whatever the glob
is made of; and a rule matches what one of its globs matches.
-/

namespace Isolate.Rules

section Compile

variable [Glob.Engine] {rule : Rule} {compiled : Compiled}

theorem compileRule_single {kind pattern : String} :
    compileRule ⟨kind, [pattern]⟩ =
      match Glob.compile pattern.toList with
      | .error refusal => .error ⟨kind, pattern, refusal⟩
      | .ok glob => .ok ⟨.ofName kind, [pattern], [glob]⟩ := by
  rw [compileRule, compileGlobs]
  cases Glob.compile pattern.toList <;> rfl

/-- The globs of a rule are those that its patterns are read as. -/
theorem compileGlobs_eq_ok {kind : String} {patterns : List String} {globs : List (List Glob.Token)}
    (compiles : compileGlobs kind patterns = .ok globs) :
    List.Forall₂ (fun pattern glob => Glob.read pattern.toList = .ok glob) patterns globs := by
  induction patterns generalizing globs with
  | nil => exact Except.ok.inj compiles ▸ .nil
  | cons pattern rest ih =>
    rw [compileGlobs] at compiles
    split at compiles
    next => contradiction
    next glob read =>
      split at compiles
      next => contradiction
      next others compiled => exact Except.ok.inj compiles ▸ .cons (Glob.read_of_compile read) (ih compiled)

theorem globs_of_compileRule (compiles : compileRule rule = .ok compiled) :
    List.Forall₂ (fun pattern glob => Glob.read pattern.toList = .ok glob) rule.patterns
      compiled.globs := by
  rw [compileRule] at compiles
  split at compiles
  next => contradiction
  next globs read => exact Except.ok.inj compiles ▸ compileGlobs_eq_ok read

/-- A rule matches what one of its globs accepts. -/
theorem matches_iff (compiles : compileRule rule = .ok compiled) (path : Path) :
    compiled.matches path ↔
      ∃ pattern ∈ rule.patterns, ∃ glob, Glob.read pattern.toList = .ok glob ∧
        Glob.accepts glob (subject path) := by
  have reads := globs_of_compileRule compiles
  rw [Compiled.matches, Compiled.accepts]
  generalize rule.patterns = patterns at reads ⊢
  generalize compiled.globs = globs at reads ⊢
  induction reads with
  | nil => simp
  | cons read _ ih => simp [ih, read]

/-- What the rule that is read decides can be evaluated. -/
theorem matches_of_evaluated {path : Path} (compiles : compileRule rule = .ok compiled)
    (evaluated : (compileRule rule).toOption.any (·.matches path)) : compiled.matches path := by
  rwa [compiles] at evaluated

/-- The search for a widened glob succeeds exactly if the glob takes the whole text or what stands behind
one of its separators; and a rule matches a path exactly if one of its globs does so with the path's
text. -/
theorem globs_match_tails :
    (∀ (glob : List Glob.Token) (text : List UInt8),
      (Glob.accepts glob text ↔ (Glob.body glob).widened.Occurs text) ∧
        (Glob.acceptsWhole glob text ↔ (Glob.body glob).anchored.Occurs text) ∧
        ((Glob.body glob).widened.Occurs text ↔
          ∃ tail, Glob.IsTail tail text ∧ (Glob.body glob).anchored.Occurs tail)) ∧
      ∀ rule compiled, compileRule rule = .ok compiled → ∀ path : Path,
        (compiled.matches path ↔
          ∃ pattern ∈ rule.patterns, ∃ glob, Glob.read pattern.toList = .ok glob ∧
            ∃ tail, Glob.IsTail tail (subject path) ∧ (Glob.body glob).anchored.Occurs tail) := by
  have tails (glob : List Glob.Token) (text : List UInt8) :
      (Glob.body glob).widened.Occurs text ↔
        ∃ tail, Glob.IsTail tail text ∧ (Glob.body glob).anchored.Occurs tail := by
    simp only [Glob.Expression.occurs_widened (Glob.floating_body glob),
      Glob.Expression.occurs_anchored (Glob.floating_body glob)]
  refine ⟨fun glob text => ⟨Glob.accepts_iff glob text, Glob.acceptsWhole_iff glob text, tails glob text⟩,
    fun rule compiled compiles path => ?_⟩
  simp only [matches_iff compiles, Glob.accepts_iff, tails]

end Compile

/-- A rule with a glob of branches, one of which crosses separators, and a class. -/
def branching : Rule := ⟨"Text", ["{lib,src/**}/[!a].t?t"]⟩

/-- It matches a path in which a backslash stands for a separator. -/
theorem globs_match_tails_of_branching :
    ∃ compiled, compileRule branching = .ok compiled ∧ compiled.matches ⟨"/w/src/x\\y/b.txt"⟩ ∧
      ∃ pattern ∈ branching.patterns, ∃ glob, Glob.read pattern.toList = .ok glob ∧
        ∃ tail, Glob.IsTail tail (subject ⟨"/w/src/x\\y/b.txt"⟩) ∧
          (Glob.body glob).anchored.Occurs tail := by
  have fine : (compileRule branching).isOk := by decide +kernel
  cases compiles : compileRule branching with
  | error error =>
    rw [compiles] at fine
    contradiction
  | ok compiled =>
    have matched : compiled.matches ⟨"/w/src/x\\y/b.txt"⟩ :=
      matches_of_evaluated compiles (by decide +kernel)
    exact ⟨compiled, rfl, matched, (globs_match_tails.2 branching compiled compiles _).mp matched⟩

end Isolate.Rules
