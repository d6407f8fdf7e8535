import Isolate.Attribution
import Isolate.Proofs.Diagnostic.Frames

/-!
# The place that a diagnostic tells

The diagnostic of a failure writes between parentheses where a thrown error was made, or else where the
failure happened. What the code itself has said stands in front of that, and if it is worded like a
frame the place is read off there.
-/

namespace Isolate

open Script

def Script.Site.location (site : Site) (origin : String) : Location :=
  ⟨site.label origin, some site.place.line, some site.place.column⟩

namespace Script.World

variable {w : World} {abrupt : Abrupt} {site : Site}

theorem describeError_some (id : ObjectId) (site : Site) :
    w.describeError id (some site) = w.describeError id none ++ s!" ({site.describe})" := by
  rw [describeError, describeError]
  simp [toString, String.append_assoc]

theorem describe_error {id : ObjectId} {kind : ErrorKind} {made : Option Site}
    (nature : (w.object id).nature = .error kind made) :
    w.describe describeDepth (.object id) = w.describeError id made := by
  rw [describeDepth, describe, nature]

/-- The host knows a value as an error of its kind with a message that can be read, if no code has
seen the error or the host gets all else that it looks at. -/
theorem native?_eq_some_iff {id : ObjectId} {native : Native} :
    w.native? (.object id) = some native ↔
      (w.object id).nature = .error native.kind native.site ∧
        (w.read? id "message").bind messageText? = some native.message ∧
        ((w.object id).fresh ∨ w.isLegible id native.kind) := by
  rw [native?]
  split
  next kind site nature =>
    split
    next message said =>
      rw [nature, said, Option.ite_none_right_eq_some, Bool.or_eq_true]
      constructor
      · rintro ⟨seen, same⟩
        rw [← Option.some.inj same]
        exact ⟨rfl, rfl, seen⟩
      · rintro ⟨same, said, seen⟩
        injection same with kinds sites
        subst kinds sites
        rw [Option.some.inj said]
        exact ⟨seen, rfl⟩
    next unsaid =>
      refine iff_of_false nofun fun ⟨_, said, _⟩ => ?_
      rw [unsaid] at said
      contradiction
  next other => exact iff_of_false nofun fun ⟨same, _⟩ => other _ _ same

end Script.World
end Isolate
