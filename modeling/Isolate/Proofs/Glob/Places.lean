import Isolate.Proofs.Glob.Expression

/-!
# Sets of places

A set of places of a text stands for the pieces of the text in front of them. A token leads from a set of
places to the places behind what its expressions spell, and so do tokens one after the other and the
branches of a group. So a glob accepts a text exactly where its expression occurs.
-/

namespace Isolate.Glob

open Expression

def Reaches (marks : List Bool) (front : List UInt8) : Prop := marks[front.length]? = some true

/-- An expression leads from a set of places of a text to another one. -/
structure Advances (text : List UInt8) (e : Expression) (marks ends : List Bool) : Prop where
  length_eq : ends.length = text.length + 1
  reaches_iff : ∀ front, front <+: text →
    (Reaches ends front ↔ ∃ u v, front = u ++ v ∧ Reaches marks u ∧ e.Spells v)

variable {text front : List UInt8} {marks middle ends others : List Bool} {set : ByteSet}
  {e f : Expression} {parts : List Expression}

theorem reaches_cons_nil {mark : Bool} : Reaches (mark :: marks) [] ↔ mark = true := by
  simp [Reaches]

theorem reaches_cons_cons {mark : Bool} {b : UInt8} :
    Reaches (mark :: marks) (b :: front) ↔ Reaches marks front := by
  simp [Reaches]

theorem length_shift (before : Bool) (long : marks.length = text.length + 1) :
    (shift set before text marks).length = text.length + 1 := by
  induction text generalizing before marks with
  | nil => simp [shift]
  | cons b text ih =>
    obtain ⟨mark, marks, rfl⟩ := List.exists_cons_of_length_eq_add_one long
    rw [shift, List.length_cons, ih _ (by simpa using long), List.length_cons]

theorem length_spread (reached : Bool) (long : marks.length = text.length + 1) :
    (spread set reached text marks).length = text.length + 1 := by
  induction text generalizing reached marks with
  | nil =>
    obtain ⟨mark, marks, rfl⟩ := List.exists_cons_of_length_eq_add_one long
    simp [spread]
  | cons b text ih =>
    obtain ⟨mark, marks, rfl⟩ := List.exists_cons_of_length_eq_add_one long
    rw [spread, List.length_cons, ih _ (by simpa using long), List.length_cons]

theorem reaches_shift (before : Bool) (long : marks.length = text.length + 1) (within : front <+: text) :
    Reaches (shift set before text marks) front ↔
      front = [] ∧ before = true ∨ ∃ u b, front = u ++ [b] ∧ Reaches marks u ∧ set b = true := by
  induction front generalizing before marks text with
  | nil => cases text <;> cases marks <;> simp [shift, reaches_cons_nil]
  | cons b front ih =>
    obtain ⟨rest, rfl⟩ := within
    obtain ⟨mark, marks, rfl⟩ := List.exists_cons_of_length_eq_add_one long
    rw [List.cons_append, shift, reaches_cons_cons,
      ih _ (by simpa using long) (List.prefix_append front rest)]
    constructor
    · rintro (⟨rfl, here⟩ | ⟨u, c, rfl, reached, found⟩)
      · rw [Bool.and_eq_true] at here
        exact .inr ⟨[], b, rfl, reaches_cons_nil.mpr here.1, here.2⟩
      · exact .inr ⟨b :: u, c, rfl, reaches_cons_cons.mpr reached, found⟩
    · rintro (⟨nothing, _⟩ | ⟨u, c, same, reached, found⟩)
      · contradiction
      · cases u with
        | nil =>
          obtain ⟨rfl, rfl⟩ := List.cons.inj same
          exact .inl ⟨rfl, Bool.and_eq_true_iff.mpr ⟨reaches_cons_nil.mp reached, found⟩⟩
        | cons d u =>
          obtain ⟨rfl, rfl⟩ := List.cons.inj same
          exact .inr ⟨u, c, rfl, reaches_cons_cons.mp reached, found⟩

theorem reaches_spread (reached : Bool) (long : marks.length = text.length + 1)
    (within : front <+: text) :
    Reaches (spread set reached text marks) front ↔
      reached = true ∧ (∀ b ∈ front, set b = true) ∨
        ∃ u v, front = u ++ v ∧ Reaches marks u ∧ ∀ b ∈ v, set b = true := by
  induction front generalizing reached marks text with
  | nil =>
    obtain ⟨mark, marks, rfl⟩ := List.exists_cons_of_length_eq_add_one long
    cases text <;> simp [spread, reaches_cons_nil, or_comm]
  | cons b front ih =>
    obtain ⟨rest, rfl⟩ := within
    obtain ⟨mark, marks, rfl⟩ := List.exists_cons_of_length_eq_add_one long
    rw [List.cons_append, spread, reaches_cons_cons,
      ih _ (by simpa using long) (List.prefix_append front rest), Bool.and_eq_true, Bool.or_eq_true,
      List.forall_mem_cons]
    constructor
    · rintro (⟨⟨here | here, first⟩, others⟩ | ⟨u, v, rfl, there, others⟩)
      · exact .inr ⟨[], b :: front, rfl, reaches_cons_nil.mpr here, List.forall_mem_cons.mpr ⟨first, others⟩⟩
      · exact .inl ⟨here, first, others⟩
      · exact .inr ⟨b :: u, v, rfl, reaches_cons_cons.mpr there, others⟩
    · rintro (⟨here, first, others⟩ | ⟨u, v, same, there, others⟩)
      · exact .inl ⟨⟨.inr here, first⟩, others⟩
      · cases u with
        | nil =>
          subst same
          obtain ⟨first, others⟩ := List.forall_mem_cons.mp others
          exact .inl ⟨⟨.inl (reaches_cons_nil.mp there), first⟩, others⟩
        | cons d u =>
          obtain ⟨rfl, rfl⟩ := List.cons.inj same
          exact .inr ⟨u, v, rfl, reaches_cons_cons.mp there, others⟩

theorem advances_one (set : ByteSet) (long : marks.length = text.length + 1) :
    Advances text (.byte set) marks (one set text marks) where
  length_eq := length_shift false long
  reaches_iff front within := by
    rw [one, reaches_shift false long within]
    constructor
    · rintro (⟨_, no⟩ | ⟨u, b, same, reached, found⟩)
      · contradiction
      · exact ⟨u, [b], same, reached, b, found, rfl⟩
    · rintro ⟨u, _, same, reached, b, found, rfl⟩
      exact .inr ⟨u, b, same, reached, found⟩

theorem advances_many (set : ByteSet) (long : marks.length = text.length + 1) :
    Advances text (.run set) marks (many set text marks) where
  length_eq := length_spread false long
  reaches_iff front within := by
    rw [many, reaches_spread false long within]
    exact or_iff_right fun h => nomatch h.1

theorem advances_empty (long : marks.length = text.length + 1) : Advances text .empty marks marks where
  length_eq := long
  reaches_iff front _ :=
    ⟨fun reached => ⟨front, [], (List.append_nil _).symm, reached, rfl⟩,
      fun ⟨u, _, same, reached, nothing⟩ => by rwa [same, nothing, List.append_nil]⟩

theorem advances_never (long : marks.length = text.length + 1) :
    Advances text .never marks (marks.map fun _ => false) where
  length_eq := by rw [List.length_map, long]
  reaches_iff front _ := by
    refine iff_of_false (fun reached => ?_) fun ⟨_, _, _, _, spelled⟩ => spelled
    rw [Reaches, List.getElem?_map, Option.map_eq_some_iff] at reached
    exact nomatch reached.choose_spec.2

theorem Advances.both (first : Advances text e marks middle) (second : Advances text f middle ends) :
    Advances text (.both e f) marks ends where
  length_eq := second.length_eq
  reaches_iff front within := by
    rw [second.reaches_iff front within]
    constructor
    · rintro ⟨u, v, rfl, reached, last⟩
      obtain ⟨t, u, rfl, reached, spelled⟩ :=
        (first.reaches_iff u ((List.prefix_append u v).trans within)).mp reached
      exact ⟨t, u ++ v, List.append_assoc .., reached, u, v, rfl, spelled, last⟩
    · rintro ⟨t, _, rfl, reached, u, v, rfl, spelled, last⟩
      rw [← List.append_assoc] at within ⊢
      exact ⟨t ++ u, v, rfl,
        (first.reaches_iff _ ((List.prefix_append _ v).trans within)).mpr ⟨t, u, rfl, reached, spelled⟩,
        last⟩

theorem length_union (long : marks.length = text.length + 1) (other : others.length = text.length + 1) :
    (union marks others).length = text.length + 1 := by
  induction text generalizing marks others with
  | nil =>
    obtain ⟨mark, marks, rfl⟩ := List.exists_cons_of_length_eq_add_one long
    obtain ⟨other', others, rfl⟩ := List.exists_cons_of_length_eq_add_one other
    obtain rfl : marks = [] := by simpa using long
    simpa [union] using other
  | cons b text ih =>
    obtain ⟨mark, marks, rfl⟩ := List.exists_cons_of_length_eq_add_one long
    obtain ⟨other', others, rfl⟩ := List.exists_cons_of_length_eq_add_one other
    rw [union, List.length_cons, ih (by simpa using long) (by simpa using other), List.length_cons]

theorem reaches_union : Reaches (union marks others) front ↔ Reaches marks front ∨ Reaches others front := by
  induction front generalizing marks others with
  | nil => cases marks <;> cases others <;> simp [union, Reaches]
  | cons b front ih =>
    cases marks with
    | nil => simp [union, Reaches]
    | cons mark marks =>
      cases others with
      | nil => simp [union, Reaches]
      | cons other others => rw [union, reaches_cons_cons, reaches_cons_cons, reaches_cons_cons, ih]

theorem Advances.either (first : Advances text e marks middle) (second : Advances text f marks ends) :
    Advances text (.either e f) marks (union middle ends) where
  length_eq := length_union first.length_eq second.length_eq
  reaches_iff front within := by
    rw [reaches_union, first.reaches_iff front within, second.reaches_iff front within]
    simp only [Spells, and_or_left, exists_or]

theorem Advances.append (first : Advances text (sequence parts) marks middle) {rest : List Expression}
    (second : Advances text (sequence rest) middle ends) :
    Advances text (sequence (parts ++ rest)) marks ends where
  length_eq := second.length_eq
  reaches_iff front within := by
    rw [(first.both second).reaches_iff front within]
    exact exists₂_congr fun u v => and_congr_right fun _ => and_congr_right fun _ =>
      spells_sequence_append.symm

theorem Advances.single (h : Advances text e marks ends) : Advances text (sequence [e]) marks ends :=
  h.both (advances_empty h.length_eq)

theorem Advances.congr (h : Advances text e marks ends) (same : ∀ bytes, e.Spells bytes ↔ f.Spells bytes) :
    Advances text f marks ends where
  length_eq := h.length_eq
  reaches_iff front within := by simp only [h.reaches_iff front within, same]

theorem advances_exactly (bytes : List UInt8) (long : marks.length = text.length + 1) :
    Advances text (sequence (bytes.map fun b => .byte (· == b))) marks (exactly bytes text marks) := by
  induction bytes generalizing marks with
  | nil => exact advances_empty long
  | cons b bytes ih =>
    have first := advances_one (· == b) long
    exact first.both (ih first.length_eq)

mutual

/-- A token leads to the places behind what its expressions spell. -/
theorem Token.advances {marks : List Bool} (long : marks.length = text.length + 1) :
    (token : Token) → Advances text (sequence token.expressions) marks (token.advance text marks)
  | .literal c => by
    rw [Token.expressions, Token.advance]
    exact advances_exactly _ long
  | .any => by
    rw [Token.expressions, Token.advance]
    exact (advances_one _ long).single
  | .anyRun => by
    rw [Token.expressions, Token.advance]
    exact (advances_many _ long).single
  | .componentsFirst => by
    rw [Token.expressions, Token.advance]
    have lines := advances_many notNewline long
    have most := (advances_empty long).either (lines.both (advances_one (· == separator) lines.length_eq))
    -- A separator alone is also any bytes, namely none, and a separator.
    refine (most.congr fun bytes => ?_).single
    refine ⟨Or.imp_left .inl, ?_⟩
    rintro ((none | some) | some)
    · exact .inl none
    · exact .inr ⟨[], bytes, rfl, nofun, some⟩
    · exact .inr some
  | .componentsLast => by
    rw [Token.expressions, Token.advance]
    have behind := advances_one (· == separator) long
    exact behind.both (advances_many _ behind.length_eq).single
  | .componentsBetween => by
    rw [Token.expressions, Token.advance]
    have behind := advances_one (· == separator) long
    have lines := advances_many notNewline behind.length_eq
    exact (behind.either (behind.both (lines.both (advances_one _ lines.length_eq)))).single
  | .oneOf negated ranges => by
    rw [Token.expressions, Token.advance]
    exact (advances_one _ long).single
  | .alternates branches => by
    have any := advanceAny_advances long branches
    have none := branchExpressions_eq_nil_iff branches
    rw [Token.expressions, Token.advance]
    split
    next nothing => rw [if_pos (none.mp nothing)]; exact advances_empty long
    next some => rw [if_neg (mt none.mpr some)]; exact any.single

/-- Tokens lead to the places behind what their expressions spell. -/
theorem advance_advances {marks : List Bool} (long : marks.length = text.length + 1) :
    (tokens : List Token) → Advances text (sequence (expressions tokens)) marks (advance text marks tokens)
  | [] => by
    rw [expressions, advance]
    exact advances_empty long
  | token :: rest => by
    have first := token.advances long
    rw [expressions, advance]
    exact first.append (advance_advances first.length_eq rest)

/-- A group leads to the places behind what the expression of one of its branches spells. -/
theorem advanceAny_advances {marks : List Bool} (long : marks.length = text.length + 1) :
    (branches : List (List Token)) →
      Advances text (choice (branchExpressions branches)) marks (advanceAny text marks branches)
  | [] => by
    rw [branchExpressions, advanceAny]
    exact advances_never long
  | branch :: rest => by
    have here := advance_advances long branch
    have others := advanceAny_advances long rest
    have none := expressions_eq_nil_iff branch
    rw [branchExpressions, advanceAny]
    split
    next nothing => rwa [if_pos (none.mp nothing)]
    next some => rw [if_neg (mt none.mpr some)]; exact here.either others

end

theorem reaches_firstPlace (within : front <+: text) : Reaches (firstPlace text) front ↔ front = [] := by
  cases front with
  | nil => exact iff_of_true rfl rfl
  | cons b front =>
    rw [firstPlace, reaches_cons_cons, Reaches, List.getElem?_map]
    refine iff_of_false (fun marked => ?_) nofun
    rw [Option.map_eq_some_iff] at marked
    exact nomatch marked.choose_spec.2

theorem reaches_componentStarts (within : front <+: text) :
    Reaches (componentStarts text) front ↔ front = [] ∨ ∃ before, front = before ++ [separator] := by
  rcases List.eq_nil_or_concat front with rfl | ⟨before, b, rfl⟩
  · exact iff_of_true rfl (.inl rfl)
  · obtain ⟨rest, rfl⟩ := within
    rw [componentStarts, Reaches]
    simp

theorem Advances.getLastD (h : Advances text e marks ends) :
    ends.getLastD false = true ↔ Reaches ends text := by
  rw [List.getLastD_eq_getLast?, List.getLast?_eq_getElem?, h.length_eq, Nat.add_sub_cancel, Reaches]
  cases ends[text.length]? <;> simp

theorem acceptsFrom_of_ne {tokens : List Token} (more : tokens ≠ [.componentsFirst]) :
    acceptsFrom marks tokens text = (advance text marks tokens).getLastD false := by
  unfold acceptsFrom
  split
  · contradiction
  · rfl

/-- A glob accepts from some places what its expression spells up to the end. -/
theorem acceptsFrom_iff (long : marks.length = text.length + 1) (tokens : List Token) :
    acceptsFrom marks tokens text ↔
      ∃ before rest, text = before ++ rest ∧ Reaches marks before ∧ (body tokens).Spells rest := by
  by_cases alone : tokens = [.componentsFirst]
  · have ends := advances_many notNewline long
    subst alone
    exact ends.getLastD.trans (ends.reaches_iff text List.prefix_rfl)
  · have ends := advance_advances long tokens
    rw [acceptsFrom_of_ne alone, body_of_ne alone, ends.getLastD,
      ends.reaches_iff text List.prefix_rfl]

/-- A glob accepts a whole text exactly if its anchored expression occurs there. -/
theorem acceptsWhole_iff (tokens : List Token) (text : List UInt8) :
    acceptsWhole tokens text ↔ (body tokens).anchored.Occurs text := by
  rw [acceptsWhole, acceptsFrom_iff (by simp [firstPlace]), occurs_anchored (floating_body tokens)]
  constructor
  · rintro ⟨before, rest, rfl, first, spelled⟩
    rw [reaches_firstPlace (List.prefix_append ..)] at first
    rwa [first, List.nil_append]
  · exact fun spelled => ⟨[], text, rfl, rfl, spelled⟩

/-- A glob accepts a text or the end of one exactly if its widened expression occurs there. -/
theorem accepts_iff (tokens : List Token) (text : List UInt8) :
    accepts tokens text ↔ (body tokens).widened.Occurs text := by
  rw [accepts, acceptsFrom_iff (by simp [componentStarts]), occurs_widened (floating_body tokens)]
  constructor
  · rintro ⟨before, rest, rfl, start, spelled⟩
    rw [reaches_componentStarts (List.prefix_append ..)] at start
    rcases start with rfl | ⟨before, rfl⟩
    · exact ⟨rest, .inl rfl, spelled⟩
    · exact ⟨rest, .inr ⟨before, by simp⟩, spelled⟩
  · rintro ⟨rest, rfl | ⟨before, rfl⟩, spelled⟩
    · exact ⟨[], rest, rfl, rfl, spelled⟩
    · refine ⟨before ++ [separator], rest, by simp, ?_, spelled⟩
      exact (reaches_componentStarts (by simp)).mpr (.inr ⟨before, rfl⟩)

end Isolate.Glob
