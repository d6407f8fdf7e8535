import Isolate.Proofs.Blueprint.Life
import Isolate.Proofs.Worker.Provenance

/-!
# Classified before it is read, and loaded as it is classified

From the entry of its root on, all that happens to a session is a sequence of deeds: in a build that
succeeds or fails, in the runs after it, and between them. So at every moment a session has read nothing
but paths of supported kinds, and all of its records but that of the root were made by the loaders of the
kinds that the paths have.
-/

namespace Isolate

open Script

variable {σ : Type} [Store.Source σ]

/-- A build ends before its root is entered, and has read nothing and made no record; or all that it does
afterwards is a sequence of deeds, and so is all that happens to its session later. -/
theorem Blueprint.traces_buildModule (blueprint : Blueprint) (globals : Globals)
    (host : Host (Store.Watched σ)) :
    ((blueprint.buildModule globals host).2.store = host.store ∧
        ((blueprint.buildModule globals host).2.session = host.session ∨
          host.session.bind = .ok (blueprint.buildModule globals host).2.session)) ∨
      ∃ (session : Session Nat) (root : Nat) (start worker : Worker (Store.Watched σ)),
        host.session.bind = .ok session ∧
        start.session = some (session.enter (blueprint.rootOrigin host.directory) root) ∧
        start.store = host.store ∧ start.Traces worker ∧
        (blueprint.buildModule globals host).2 = Host.leave { host with session } worker ∧
        ∀ (deeds : List (Host.Deed σ)) (world : World),
          start.Evolves (((blueprint.buildModule globals host).2.after deeds).worker world) := by
  rcases blueprint.buildModule_leaves (S := Worker.Traces) globals host with
    ⟨_, store, session⟩ | ⟨session, root, start, worker, bound, entered, store, traces, left, _⟩
  · exact .inl ⟨store, session⟩
  · refine .inr ⟨session, root, start, worker, bound, entered, store, traces, left,
      fun deeds world => ?_⟩
    have begun : (session.enter (blueprint.rootOrigin host.directory) root).isBound := by
      rw [Session.enter_isBound]
      exact Session.isBound_of_bind bound
    have evolves : start.Evolves worker := traces.imp fun _ traced => traced.1
    obtain ⟨here, still⟩ := Host.leave_evolves evolves entered begun { host with session } world
    rw [left]
    exact here.trans (Host.after_evolves still deeds world world)

/-- Rules are applied before anything is read. In every sequence of deeds from the entry of the root on,
and so in all that builds and runs do to a session, a path is read only if the first declared rule that
matches it names a supported kind. Every record but that of the root was made by the loader of the kind
that its path has, out of what the file held; and what is to be unwrapped are the paths with a record that
have the CommonJS kind, but for the root. An import of a path without a record that no rule matches, or
that a rule gives an unknown kind, fails with that, and nothing is read. -/
theorem records_are_loaded_as_their_kinds [Glob.Engine] {declared : List Rule} {rules : Rules}
    (compiled : Rules.compile declared = .ok rules) :
    (∀ (start : Worker (Store.Watched σ)) (session : Session Nat) (root : Origin) (record : Nat)
        (deeds : List (Worker.Deed σ)) (n : Nat),
        session.rules = rules → session.records = [] → session.wrapped = [] →
          start.store.reads = [] → start.session = some (session.enter root record) →
            ∃ later, (start.state deeds n).session = some later ∧
              (∀ read ∈ (start.state deeds n).store.reads, ∃ rule, ∃ kind : Kind.Supported,
                Rules.first? declared read.1 = some rule ∧ rule.kind = kind.name) ∧
              (∀ entry ∈ later.records, root ≠ .file entry.1 →
                ∃ kind, rules.classify entry.1 = some (.supported kind) ∧
                  ∃ k < n, start.Makes deeds k entry.1 kind entry.2) ∧
              ∀ path, path ∈ later.wrapped ↔ path ∈ later.records.map (·.1) ∧
                rules.classify path = some (.supported .commonJS) ∧ root ≠ .file path) ∧
      (∀ (worker : Worker (Store.Watched σ)) (session : Session Nat) (referrer : Origin)
        (specifier : Text.Units) (path : Path),
        worker.session = some session → session.rules = rules →
          referrer.target specifier.toString = some path → session.record? path = none →
            (Rules.first? declared path = none →
                worker.Refuses session referrer specifier path (.noMatchingRule path)) ∧
              ∀ rule, Rules.first? declared path = some rule →
                (∀ kind : Kind.Supported, rule.kind ≠ kind.name) →
                  worker.Refuses session referrer specifier path
                    (.unsupportedKind rule.kind path)) ∧
      (∀ (blueprint : Blueprint) (globals : Globals) (host : Host (Store.Watched σ)),
        ((blueprint.buildModule globals host).2.store = host.store ∧
            ((blueprint.buildModule globals host).2.session = host.session ∨
              host.session.bind = .ok (blueprint.buildModule globals host).2.session)) ∨
          ∃ (session : Session Nat) (root : Nat) (start worker : Worker (Store.Watched σ)),
            host.session.bind = .ok session ∧
            start.session = some (session.enter (blueprint.rootOrigin host.directory) root) ∧
            start.store = host.store ∧ start.Traces worker ∧
            (blueprint.buildModule globals host).2 = Host.leave { host with session } worker ∧
            ∀ (deeds : List (Host.Deed σ)) (world : World),
              start.Evolves (((blueprint.buildModule globals host).2.after deeds).worker world)) ∧
      ∀ (module : BuiltModule) (host : Host (Store.Watched σ)),
        ∃ worker, (host.worker module.world).Traces worker ∧
          (BuiltModule.run.{0} module host).2.2 = host.leave worker := by
  refine ⟨fun start session root record deeds n same fresh bare unread entered => ?_,
    fun worker session referrer specifier path here same target unknown => ?_,
    fun blueprint globals host => blueprint.traces_buildModule globals host,
    fun module host => module.run_leaves host⟩
  · obtain ⟨later, left, kept, accounts⟩ :=
      Worker.accounts_state fresh bare unread entered deeds n
    obtain rfl := kept.trans same
    refine ⟨later, left, fun read member => ?_, accounts.records, accounts.wrapped⟩
    obtain ⟨kind, classified⟩ := accounts.reads read member
    obtain ⟨rule, first, named⟩ := (Rules.classify_eq_supported_iff compiled).mp classified
    exact ⟨rule, kind, first, named⟩
  · have classified := Rules.classify_of_compile compiled path
    rw [← same] at classified
    refine ⟨fun unmatched => ?_, fun rule first unnamed => ?_⟩
    · refine Worker.refuses_of_planPath here target ?_
      rw [Session.planPath, unknown, classified, unmatched]
      rfl
    · refine Worker.refuses_of_planPath here target ?_
      rw [Session.planPath, unknown, classified, first, Option.map_some,
        Kind.ofName_of_unknown unnamed]

namespace Mixed

def declared : List Rule :=
  [⟨"ESModule", ["**/*.mjs"]⟩, ⟨"Python", ["**/*.py"]⟩, ⟨"CommonJS", ["**/*.js", "**/*.py"]⟩]

def rules : Rules := (Rules.compile declared).toOption.getD []

def index : Origin := .file ⟨"/w/index.mjs"⟩

def session : Session Nat := ({ rules } : Session Nat).enter index 7

def start : Worker (Store.Watched Store.Recording) :=
  { world := { objects := #[], scopes := #[] }, session := some session
    store := { store := { inner := .ofList [(⟨"/w/b.js"⟩, Text.Utf8.encode "exports.b = 1;".toList)] } } }

/-- Imports of the root, of a CommonJS file, of a file of an unknown kind, and of one without a rule. -/
def deeds : List (Worker.Deed Store.Recording) :=
  ["./index.mjs", "./b.js", "./c.py", "./d"].map fun specifier =>
    .resolve index (Text.Units.ofString specifier)

/-- Only the CommonJS file is read, and the two others are refused for what they are. -/
theorem records_of_mixed :
    (∃ later, (start.state deeds 4).session = some later ∧
      later.records = [(⟨"/w/b.js"⟩, 0), (⟨"/w/index.mjs"⟩, 7)] ∧ ⟨"/w/b.js"⟩ ∈ later.wrapped ∧
      (start.state deeds 4).store.reads = [(⟨"/w/b.js"⟩, true)] ∧
      ∃ k < 4, start.Makes deeds k ⟨"/w/b.js"⟩ .commonJS 0) ∧
      start.Refuses session index (Text.Units.ofString "./c.py") ⟨"/w/c.py"⟩
        (.unsupportedKind "Python" ⟨"/w/c.py"⟩) ∧
      start.Refuses session index (Text.Units.ofString "./d") ⟨"/w/d"⟩
        (.noMatchingRule ⟨"/w/d"⟩) := by
  have compiled : Rules.compile declared = .ok rules := by
    have fine : (Rules.compile declared).isOk := by decide +kernel
    rw [rules]
    cases read : Rules.compile declared with
    | ok found => rfl
    | error _ =>
      rw [read] at fine
      contradiction
  obtain ⟨states, refuses, _⟩ := records_are_loaded_as_their_kinds (σ := Store.Recording) compiled
  -- The rules are compared by name, as a comparison of what they are reads their globs.
  have same : session.rules = rules := by
    simp only [session, index, Session.enter, Session.register]
  refine ⟨?_, ?_, ?_⟩
  · obtain ⟨later, here, _, records, wrapped⟩ :=
      states start { rules } index 7 deeds 4 (by dsimp only) rfl rfl rfl rfl
    have ended : ((start.state deeds 4).session.map (·.records), (start.state deeds 4).store.reads) =
        (some [(⟨"/w/b.js"⟩, 0), (⟨"/w/index.mjs"⟩, 7)], [(⟨"/w/b.js"⟩, true)]) := by
      decide +kernel
    obtain ⟨cached, reads⟩ := Prod.mk.inj ended
    rw [here, Option.map_some, Option.some.injEq] at cached
    have common : rules.classify ⟨"/w/b.js"⟩ = some (.supported .commonJS) := by decide +kernel
    have member : (⟨"/w/b.js"⟩, 0) ∈ later.records := cached ▸ List.mem_cons_self
    have apart : index ≠ .file ⟨"/w/b.js"⟩ := by decide
    obtain ⟨kind, classified, made⟩ := records _ member apart
    obtain rfl := Kind.supported.inj (Option.some.inj (classified.symm.trans common))
    exact ⟨later, here, cached,
      (wrapped _).mpr ⟨List.mem_map_of_mem member, common, apart⟩, reads, made⟩
  · have target : index.target (Text.Units.ofString "./c.py").toString = some ⟨"/w/c.py"⟩ := by
      decide +kernel
    have first : Rules.first? declared ⟨"/w/c.py"⟩ = some ⟨"Python", ["**/*.py"]⟩ := by
      decide +kernel
    obtain ⟨_, unsupported⟩ :=
      refuses start session index _ _ rfl same target (by decide +kernel)
    exact unsupported _ first fun kind => by cases kind <;> decide
  · have target : index.target (Text.Units.ofString "./d").toString = some ⟨"/w/d"⟩ := by
      decide +kernel
    obtain ⟨unmatched, _⟩ := refuses start session index _ _ rfl same target (by decide +kernel)
    exact unmatched (by decide +kernel)

end Mixed
end Isolate
