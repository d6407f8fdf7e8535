import Isolate.Glob.Match
import Mathlib.Data.List.Basic

/-!
# Expressions over bytes

What a glob means is said by an expression over bytes that is searched for in a text. The body of the
expression has no anchors, so what it spells does not depend on where it stands. To take whole texts it is
anchored at both ends; to take the ends of texts, its start anchor is widened to a separator.
-/

namespace Isolate.Glob

/-- An expression over bytes. -/
inductive Expression where
  /-- No bytes. -/
  | empty
  /-- A choice without branches. -/
  | never
  /-- One byte of a set. -/
  | byte (set : ByteSet)
  /-- Any number of bytes of a set. -/
  | run (set : ByteSet)
  | textStart
  | textEnd
  | both (first second : Expression)
  | either (first second : Expression)

namespace Expression

def Matches : Expression → (before part after : List UInt8) → Prop
  | .empty, _, part, _ => part = []
  | .never, _, _, _ => False
  | .byte set, _, part, _ => ∃ b, set b = true ∧ part = [b]
  | .run set, _, part, _ => ∀ b ∈ part, set b = true
  | .textStart, before, part, _ => before = [] ∧ part = []
  | .textEnd, _, part, after => part = [] ∧ after = []
  | .both e f, before, part, after =>
    ∃ u v, part = u ++ v ∧ e.Matches before u (v ++ after) ∧ f.Matches (before ++ u) v after
  | .either e f, before, part, after => e.Matches before part after ∨ f.Matches before part after

/-- Whether an expression matches somewhere in a text. -/
def Occurs (e : Expression) (text : List UInt8) : Prop :=
  ∃ before part after, text = before ++ part ++ after ∧ e.Matches before part after

def slash : Expression := .byte (· == separator)

def sequence (parts : List Expression) : Expression := parts.foldr .both .empty

def choice (branches : List Expression) : Expression := branches.foldr .either .never

/-- An expression for whole texts. -/
def anchored (body : Expression) : Expression := .both .textStart (.both body .textEnd)

/-- An expression for the ends of texts that start where the text does or behind a separator. -/
def widened (body : Expression) : Expression :=
  .both (.either .textStart slash) (.both body .textEnd)

end Expression

/-- Whether a text is another one from its start on or from behind one of its separators. -/
def IsTail (tail text : List UInt8) : Prop :=
  tail = text ∨ ∃ front, text = front ++ separator :: tail

open Expression

mutual

/-- The expressions that a token stands for. A group of branches that stand for nothing stands for nothing
itself. -/
def Token.expressions : Token → List Expression
  | .literal c => (Text.Utf8.encodeChar c).map fun b => .byte (· == b)
  | .any => [.byte notSeparator]
  | .anyRun => [.run notSeparator]
  | .componentsFirst => [.either (.either .empty slash) (.both (.run notNewline) slash)]
  | .componentsLast => [slash, .run notNewline]
  | .componentsBetween => [.either slash (.both slash (.both (.run notNewline) slash))]
  | .oneOf negated ranges => [.byte (classSet negated ranges)]
  | .alternates branches =>
    match branchExpressions branches with
    | [] => []
    | parts => [choice parts]

def expressions : List Token → List Expression
  | [] => []
  | token :: rest => token.expressions ++ expressions rest

def branchExpressions : List (List Token) → List Expression
  | [] => []
  | branch :: rest =>
    match expressions branch with
    | [] => branchExpressions rest
    | parts => sequence parts :: branchExpressions rest

end

/-- The expression of a glob, without anchors. Whole components alone are any bytes of a line. -/
def body : List Token → Expression
  | [.componentsFirst] => .run notNewline
  | tokens => sequence (expressions tokens)

namespace Expression

/-- Whether an expression matches some bytes, its anchors left out of account. -/
def Spells : Expression → List UInt8 → Prop
  | .never, _ => False
  | .byte set, bytes => ∃ b, set b = true ∧ bytes = [b]
  | .run set, bytes => ∀ b ∈ bytes, set b = true
  | .both e f, bytes => ∃ u v, bytes = u ++ v ∧ e.Spells u ∧ f.Spells v
  | .either e f, bytes => e.Spells bytes ∨ f.Spells bytes
  | _, bytes => bytes = []

def IsFloating : Expression → Prop
  | .textStart | .textEnd => False
  | .both e f | .either e f => e.IsFloating ∧ f.IsFloating
  | _ => True

variable {e f : Expression} {text bytes : List UInt8} {parts others : List Expression}

theorem IsFloating.matches_iff (floating : e.IsFloating) (before part after : List UInt8) :
    e.Matches before part after ↔ e.Spells part := by
  induction e generalizing before part after with
  | textStart | textEnd => exact floating.elim
  | empty | never | byte | run => rfl
  | both e f first second =>
    exact exists₂_congr fun u v =>
      and_congr_right fun _ => and_congr (first floating.1 ..) (second floating.2 ..)
  | either e f first second => exact or_congr (first floating.1 ..) (second floating.2 ..)

theorem floating_sequence (floating : ∀ e ∈ parts, e.IsFloating) : (sequence parts).IsFloating := by
  induction parts with
  | nil => exact trivial
  | cons e parts ih =>
    obtain ⟨here, rest⟩ := List.forall_mem_cons.mp floating
    exact ⟨here, ih rest⟩

theorem floating_choice (floating : ∀ e ∈ parts, e.IsFloating) : (choice parts).IsFloating := by
  induction parts with
  | nil => exact trivial
  | cons e parts ih =>
    obtain ⟨here, rest⟩ := List.forall_mem_cons.mp floating
    exact ⟨here, ih rest⟩

theorem spells_sequence_append :
    (sequence (parts ++ others)).Spells bytes ↔
      ∃ u v, bytes = u ++ v ∧ (sequence parts).Spells u ∧ (sequence others).Spells v := by
  induction parts generalizing bytes with
  | nil => exact ⟨fun h => ⟨[], bytes, rfl, rfl, h⟩, fun ⟨_, _, same, rfl, h⟩ => same ▸ h⟩
  | cons e parts ih =>
    constructor
    · rintro ⟨u, _, rfl, first, rest⟩
      obtain ⟨v, w, rfl, rest, last⟩ := ih.mp rest
      exact ⟨u ++ v, w, (List.append_assoc ..).symm, ⟨u, v, rfl, first, rest⟩, last⟩
    · rintro ⟨_, w, rfl, ⟨u, v, rfl, first, rest⟩, last⟩
      exact ⟨u, v ++ w, List.append_assoc .., first, ih.mpr ⟨v, w, rfl, rest, last⟩⟩

/-- Where an anchored expression occurs, its body spells the whole text. -/
theorem occurs_anchored (floating : e.IsFloating) : e.anchored.Occurs text ↔ e.Spells text := by
  constructor
  · rintro ⟨before, _, after, rfl, _, _, rfl, ⟨rfl, rfl⟩, part, _, rfl, spells, rfl, rfl⟩
    simpa using (floating.matches_iff ..).mp spells
  · intro spells
    exact ⟨[], text, [], by simp, [], text, rfl, ⟨rfl, rfl⟩, text, [], by simp,
      (floating.matches_iff ..).mpr spells, rfl, rfl⟩

/-- Where a widened expression occurs, its body spells the text or what stands behind a separator. -/
theorem occurs_widened (floating : e.IsFloating) :
    e.widened.Occurs text ↔ ∃ tail, IsTail tail text ∧ e.Spells tail := by
  constructor
  · rintro ⟨before, _, after, rfl, _, _, rfl, opens, part, _, rfl, spells, rfl, rfl⟩
    refine ⟨part, ?_, (floating.matches_iff ..).mp spells⟩
    rcases opens with ⟨rfl, rfl⟩ | ⟨b, found, rfl⟩
    · left
      simp
    · right
      rw [beq_iff_eq] at found
      exact ⟨before, by simp [found]⟩
  · rintro ⟨tail, rfl | ⟨front, rfl⟩, spells⟩
    · exact ⟨[], tail, [], by simp, [], tail, rfl, .inl ⟨rfl, rfl⟩, tail, [], by simp,
        (floating.matches_iff ..).mpr spells, rfl, rfl⟩
    · exact ⟨front, separator :: tail, [], by simp, [separator], tail, rfl,
        .inr ⟨separator, beq_self_eq_true _, rfl⟩, tail, [], by simp,
        (floating.matches_iff ..).mpr spells, rfl, rfl⟩

end Expression

theorem encodeChar_ne_nil (c : Char) : Text.Utf8.encodeChar c ≠ [] := by
  unfold Text.Utf8.encodeChar
  dsimp only
  split
  · exact List.cons_ne_nil _ _
  split
  · exact List.cons_ne_nil _ _
  split <;> exact List.cons_ne_nil _ _

mutual

theorem Token.floating_expressions : (token : Token) → ∀ e ∈ token.expressions, e.IsFloating
  | .literal c => by simp [Token.expressions, IsFloating]
  | .any | .anyRun | .componentsFirst | .componentsLast | .componentsBetween | .oneOf .. => by
    simp [Token.expressions, IsFloating, slash]
  | .alternates branches => by
    have floating := floating_branchExpressions branches
    rw [Token.expressions]
    split
    · exact nofun
    · simpa using floating_choice floating

theorem floating_expressions : (tokens : List Token) → ∀ e ∈ expressions tokens, e.IsFloating
  | [] => nofun
  | token :: rest => by
    rw [expressions, List.forall_mem_append]
    exact ⟨token.floating_expressions, floating_expressions rest⟩

theorem floating_branchExpressions :
    (branches : List (List Token)) → ∀ e ∈ branchExpressions branches, e.IsFloating
  | [] => nofun
  | branch :: rest => by
    have here := floating_sequence (floating_expressions branch)
    rw [branchExpressions]
    split
    · exact floating_branchExpressions rest
    · exact List.forall_mem_cons.mpr ⟨here, floating_branchExpressions rest⟩

end

theorem expressions_append (tokens others : List Token) :
    expressions (tokens ++ others) = expressions tokens ++ expressions others := by
  induction tokens with
  | nil => rfl
  | cons token rest ih => rw [List.cons_append, expressions, ih, expressions, List.append_assoc]

theorem body_of_ne {tokens : List Token} (more : tokens ≠ [.componentsFirst]) :
    body tokens = sequence (expressions tokens) := by
  unfold body
  split
  · contradiction
  · rfl

theorem floating_body (tokens : List Token) : (body tokens).IsFloating := by
  unfold body
  split
  · exact trivial
  · exact floating_sequence (floating_expressions _)

mutual

/-- Tokens that say nothing are those that stand for no expression. -/
theorem Token.expressions_eq_nil_iff : (token : Token) → (token.expressions = [] ↔ token.isVoid)
  | .literal c => by simp [Token.expressions, Token.isVoid, encodeChar_ne_nil]
  | .any | .anyRun | .componentsFirst | .componentsLast | .componentsBetween | .oneOf .. => by
    simp [Token.expressions, Token.isVoid]
  | .alternates branches => by
    rw [Token.expressions, Token.isVoid, ← branchExpressions_eq_nil_iff branches]
    split <;> simp_all

theorem expressions_eq_nil_iff : (tokens : List Token) → (expressions tokens = [] ↔ isVoid tokens)
  | [] => by simp [expressions, isVoid]
  | token :: rest => by
    rw [expressions, List.append_eq_nil_iff, isVoid, Bool.and_eq_true,
      token.expressions_eq_nil_iff, expressions_eq_nil_iff rest]

theorem branchExpressions_eq_nil_iff :
    (branches : List (List Token)) → (branchExpressions branches = [] ↔ allVoid branches)
  | [] => by simp [branchExpressions, allVoid]
  | branch :: rest => by
    have here := expressions_eq_nil_iff branch
    rw [branchExpressions, allVoid, Bool.and_eq_true, ← here, ← branchExpressions_eq_nil_iff rest]
    split <;> simp_all

end

end Isolate.Glob
