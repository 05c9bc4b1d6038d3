import SymbolMap.Proofs.Draft.Building

/-!
# Scripts

What a reader of a mapping file does with a draft, written down: commands that give names, set
what else a draft holds, and ask for drafts inside of it together with the commands for those.
A command that is refused leaves the draft as it is, and the script goes on.

Each command takes steps that callers can take, so a script leads to a reachable draft
(`DraftCommand.reachable_runAll`), and from that a set can be built (`build_of_script`).
-/

namespace SymbolMap

open Relation (ReflTransGen)

/-! ## Commands -/

/-- Carries out commands one after the other. -/
def runEach {σ κ : Type} (run : σ → κ → σ) (commands : List κ) (s : σ) : Unit × σ :=
  ((), commands.foldl run s)

/-- A command to any draft: to take a name, for the namespace at an index or of a name, or to
move. -/
inductive HeadingCommand where
  | assign (ns : Nat) (name : String) (overwrite : Bool)
  | assignBy (ns name : String) (overwrite : Bool)
  | move (coords : Coords)

def HeadingCommand.run {δ : Type} [Draft δ] (d : δ) : HeadingCommand → δ
  | .assign ns name overwrite => (Draft.attempt (Draft.assign · ns name overwrite) d).2
  | .assignBy ns name overwrite => (Draft.attempt (Draft.assignBy · ns name overwrite) d).2
  | .move coords => Draft.withCoords d coords

inductive FieldCommand where
  | heading (command : HeadingCommand)
  | setType (type : Option FieldType)
  | setFlags (flags : MemberFlags)

def FieldCommand.run (f : FieldDraft) : FieldCommand → FieldDraft
  | .heading command => command.run f
  | .setType type => { f with type }
  | .setFlags flags => { f with flags }

inductive ParamCommand where
  | heading (command : HeadingCommand)
  | setTable (table : Option Nat)
  | setType (type : Option FieldType)

def ParamCommand.run (p : ParamDraft) : ParamCommand → ParamDraft
  | .heading command => command.run p
  | .setTable table => { p with table }
  | .setType type => { p with type }

inductive LocalCommand where
  | heading (command : HeadingCommand)
  | setType (type : Option FieldType)

def LocalCommand.run (v : LocalDraft) : LocalCommand → LocalDraft
  | .heading command => command.run v
  | .setType type => { v with type }

inductive MethodCommand where
  | heading (command : HeadingCommand)
  | setDescriptor (descriptor : Option MethodDescriptor)
  | setFlags (flags : MemberFlags)
  | param (index : Nat) (line : Option Line) (column : Nat) (commands : List ParamCommand)
  | local (index : LocalIndex) (line : Option Line) (column : Nat) (commands : List LocalCommand)

def MethodCommand.run (m : MethodDraft) : MethodCommand → MethodDraft
  | .heading command => command.run m
  | .setDescriptor descriptor => { m with descriptor }
  | .setFlags flags => { m with flags }
  | .param index line column commands =>
    (m.editParam index line column (runEach ParamCommand.run commands)).2
  | .local index line column commands =>
    (m.editLocal index line column (runEach LocalCommand.run commands)).2

/-- A command to a class, with the commands to what is inside of it. -/
inductive ClassCommand where
  | heading (command : HeadingCommand)
  | newField (line : Option Line) (column : Nat) (commands : List FieldCommand)
  | newMethod (line : Option Line) (column : Nat) (commands : List MethodCommand)
  | methodRef (ref : Spelled MethodRef) (line : Option Line) (column : Nat)
      (commands : List MethodCommand)
  | newInner (line : Option Line) (column : Nat) (commands : List ClassCommand)

mutual

def ClassCommand.run (c : ClassDraft) : ClassCommand → ClassDraft
  | .heading command => command.run c
  | .newField line column commands =>
    (c.editNewField line column (runEach FieldCommand.run commands)).2
  | .newMethod line column commands =>
    (c.editNewMethod line column (runEach MethodCommand.run commands)).2
  | .methodRef ref line column commands =>
    match c.editMethod ref line column (runEach MethodCommand.run commands) with
    | .ok (_, changed) => changed
    | .error _ => c
  | .newInner line column commands =>
    (c.editNewInner line column fun d => ((), ClassCommand.runAll d commands)).2

def ClassCommand.runAll (c : ClassDraft) : List ClassCommand → ClassDraft
  | [] => c
  | command :: rest => ClassCommand.runAll (ClassCommand.run c command) rest

end

/-- A command to the draft of a set: to note a problem, or to declare something. -/
inductive DraftCommand where
  | error (message : String) (coords : Option Coords)
  | warn (message : String) (coords : Option Coords)
  | newPackage (line : Option Line) (column : Nat) (commands : List HeadingCommand)
  | newClass (line : Option Line) (column : Nat) (commands : List ClassCommand)
  | classRef (ref : Spelled ClassName) (line : Option Line) (column : Nat)
      (commands : List ClassCommand)

def DraftCommand.run (d : MappingDraft) : DraftCommand → MappingDraft
  | .error message coords => d.error message coords
  | .warn message coords => d.warn message coords
  | .newPackage line column commands =>
    (d.editNewPackage line column (runEach HeadingCommand.run commands)).2
  | .newClass line column commands =>
    (d.editNewClass line column fun c => ((), ClassCommand.runAll c commands)).2
  | .classRef ref line column commands =>
    match d.editClass ref line column fun c => ((), ClassCommand.runAll c commands) with
    | .ok (_, changed) => changed
    | .error _ => d

/-! ## What commands do -/

/-- If each command takes some steps, so do all of them in a row. -/
theorem steps_runEach {σ κ : Type} {step : σ → σ → Prop} {run : σ → κ → σ}
    (hrun : ∀ s command, ReflTransGen step s (run s command)) (commands : List κ) (s : σ) :
    ReflTransGen step s (runEach run commands s).2 := by
  induction commands generalizing s with
  | nil => exact .refl
  | cons command rest ih => exact (hrun s command).trans (ih (run s command))

theorem HeadingCommand.steps {δ : Type} [Draft δ] (d : δ) (command : HeadingCommand) :
    ReflTransGen Draft.HeadingStep d (command.run d) := by
  cases command with
  | assign ns name overwrite => exact Draft.steps_attempt fun e => .assign
  | assignBy ns name overwrite => exact Draft.steps_attempt fun e => .assignBy
  | move coords => exact .single (.withCoords d coords)

theorem FieldCommand.steps (f : FieldDraft) (command : FieldCommand) :
    ReflTransGen FieldDraft.Step f (command.run f) := by
  cases command with
  | heading command => exact (command.steps f).lift id fun _ _ => .heading
  | setType type => exact .single (.type f type)
  | setFlags flags => exact .single (.flags f flags)

theorem ParamCommand.steps (p : ParamDraft) (command : ParamCommand) :
    ReflTransGen ParamDraft.Step p (command.run p) := by
  cases command with
  | heading command => exact (command.steps p).lift id fun _ _ => .heading
  | setTable table => exact .single (.table p table)
  | setType type => exact .single (.type p type)

theorem LocalCommand.steps (v : LocalDraft) (command : LocalCommand) :
    ReflTransGen LocalDraft.Step v (command.run v) := by
  cases command with
  | heading command => exact (command.steps v).lift id fun _ _ => .heading
  | setType type => exact .single (.type v type)

theorem MethodCommand.steps (m : MethodDraft) (command : MethodCommand) :
    ReflTransGen MethodDraft.Step m (command.run m) := by
  cases command with
  | heading command => exact (command.steps m).lift id fun _ _ => .heading
  | setDescriptor descriptor => exact .single (.descriptor m descriptor)
  | setFlags flags => exact .single (.flags m flags)
  | param index line column commands =>
    exact .single (.param m index line column _ (steps_runEach ParamCommand.steps commands))
  | «local» index line column commands =>
    exact .single (.local m index line column _ (steps_runEach LocalCommand.steps commands))

/-- A change of the heading of a class is one of the class. -/
theorem ClassDraft.Evolves.headingSteps {c d e : ClassDraft} (hcd : c.Evolves d)
    (h : ReflTransGen Draft.HeadingStep d e) : c.Evolves e := by
  induction h with
  | refl => exact hcd
  | tail _ hlast ih => exact .heading ih hlast

mutual

theorem ClassCommand.evolves_run {c d : ClassDraft} (h : c.Evolves d) :
    (command : ClassCommand) → c.Evolves (command.run d)
  | .heading command => by
    rw [ClassCommand.run]
    exact h.headingSteps (command.steps d)
  | .newField line column commands => by
    rw [ClassCommand.run]
    exact .newField line column _ h (steps_runEach FieldCommand.steps commands)
  | .newMethod line column commands => by
    rw [ClassCommand.run]
    exact .newMethod line column _ h (steps_runEach MethodCommand.steps commands)
  | .methodRef ref line column commands => by
    rw [ClassCommand.run]
    split
    · exact .methodRef h (steps_runEach MethodCommand.steps commands) ‹_›
    · exact h
  | .newInner line column commands => by
    -- what is done inside starts from a blank class
    rw [ClassCommand.run]
    exact .newInner line column _ h (ClassCommand.evolves_runAll (.refl _) commands)

theorem ClassCommand.evolves_runAll {c d : ClassDraft} (h : c.Evolves d) :
    (commands : List ClassCommand) → c.Evolves (ClassCommand.runAll d commands)
  | [] => h
  | command :: rest =>
    ClassCommand.evolves_runAll (ClassCommand.evolves_run h command) rest

end

theorem DraftCommand.reachable_run {d : MappingDraft} (hd : d.Reachable)
    (command : DraftCommand) : (command.run d).Reachable := by
  cases command with
  | error message coords => exact .error message coords hd
  | warn message coords => exact .warn message coords hd
  | newPackage line column commands =>
    exact .newPackage line column _ hd (steps_runEach HeadingCommand.steps commands)
  | newClass line column commands =>
    exact .newClass line column _ hd fun c => ClassCommand.evolves_runAll (.refl c) commands
  | classRef ref line column commands =>
    rw [DraftCommand.run]
    split
    · exact .classRef hd (fun c => ClassCommand.evolves_runAll (.refl c) commands) ‹_›
    · exact hd

theorem DraftCommand.reachable_runAll {d : MappingDraft} (hd : d.Reachable)
    (script : List DraftCommand) : (script.foldl DraftCommand.run d).Reachable := by
  induction script generalizing d with
  | nil => exact hd
  | cons command rest ih => exact ih (reachable_run hd command)

/-- **Building never fails.** Whatever a script declares in a draft of valid namespaces, and
whichever of its commands are refused, a set can be built from the draft. -/
theorem build_of_script {names : List String} {start : MappingDraft}
    (h : MappingDraft.create names = .ok start) (script : List DraftCommand) (id : SetId) :
    ∃ s report, (script.foldl DraftCommand.run start).build id = .ok (s, report) :=
  ⟨_, _, MappingDraft.build_eq (DraftCommand.reachable_runAll (.create h) script).wellFormed id⟩

/-- Names for namespaces that there are none of, and look-ups in such ones, are refused. A method
without a descriptor, a local variable without an index and a class with a blank name are
taken. -/
theorem build_of_script_refused :
    let script : List DraftCommand :=
      [.classRef ⟨⟨"x/A"⟩, 2⟩ none 1 [],
        .newPackage none 1 [.assignBy "c" "p" true],
        .classRef ⟨⟨"x/A"⟩, 0⟩ none 1
          [.heading (.assign 5 "A" true),
            .methodRef ⟨⟨⟨"run"⟩, some ⟨[], .void⟩⟩, 2⟩ none 1 [],
            .methodRef ⟨⟨⟨"run"⟩, some ⟨[], .void⟩⟩, 1⟩ none 1
              [.param 0 none 1 [.heading (.assign 0 "p" false)],
                .local ⟨⟨none, none, none⟩, none⟩ none 1 []],
            .newMethod none 1 [],
            .newInner none 1 [.heading (.assign 1 " " true)]]]
    let start : MappingDraft := ⟨["a", "b"], .empty, [], [], none⟩
    let d := script.foldl DraftCommand.run start
    MappingDraft.create ["a", "b"] = .ok start ∧
      d.classes.map (fun c => (c.names, c.methods.length, c.inner.length)) =
        [(⟨[some "x/A", none]⟩, 2, 1)] ∧
      ∃ s report, d.build ⟨7⟩ = .ok (s, report) := by
  intro script start d
  have hstart : MappingDraft.create ["a", "b"] = .ok start := rfl
  have hclasses : d.classes.map (fun c => (c.names, c.methods.length, c.inner.length)) =
      [(⟨[some "x/A", none]⟩, 2, 1)] := by decide +kernel
  exact ⟨hstart, hclasses, build_of_script hstart script ⟨7⟩⟩

end SymbolMap
