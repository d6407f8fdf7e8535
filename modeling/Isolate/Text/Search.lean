/-!
# Texts inside texts
-/

namespace Isolate.Text

def startsWith : (text start : List Char) → Bool
  | _, [] => true
  | [], _ :: _ => false
  | c :: text, d :: start => c = d && startsWith text start

def contains (text part : List Char) : Bool :=
  startsWith text part || match text with
    | [] => false
    | _ :: rest => contains rest part

theorem startsWith_iff {text start : List Char} : startsWith text start ↔ start <+: text := by
  induction start generalizing text with
  | nil => simp [startsWith]
  | cons d start ih =>
    cases text with
    | nil => simp [startsWith]
    | cons c text => simp [startsWith, ih, List.cons_prefix_cons, @eq_comm _ c]

/-- A text occurs in another one that it is a piece of. -/
theorem contains_iff {text part : List Char} : contains text part ↔ part <:+: text := by
  induction text with
  | nil => simp [contains, startsWith_iff]
  | cons c text ih =>
    rw [contains, Bool.or_eq_true, startsWith_iff, ih, List.infix_cons_iff]

end Isolate.Text
