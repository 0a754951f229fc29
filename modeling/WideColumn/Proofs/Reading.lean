import WideColumn.Command.Invocation
import WideColumn.Proofs.Action

/-!
# Reading commands

A command that has been read tells which command was typed (`WideColumn.Invocation.ofArgs_command`),
and what it is about has passed the checks of its reading: the families of a creation were read as
such, and so was the change of an alteration.
-/

namespace WideColumn

/-- Whether every value of a reading has a property. -/
def Yields {α : Type} (property : α → Prop) (reading : Except Error α) : Prop :=
  ∀ value, reading = .ok value → property value

section Yields

variable {α β : Type} {property : α → Prop}

/-- A value that is returned has its property. -/
theorem yields_pure {value : α} (holds : property value) :
    Yields property (pure value : Except Error α) := by
  rintro _ ⟨⟩
  exact holds

theorem yields_error (error : Error) : Yields property (.error error : Except Error α) :=
  nofun

/-- A sequence yields what its last part yields. -/
theorem Yields.bind {earlier : β → Prop} {first : Except Error β} {next : β → Except Error α}
    (starts : Yields earlier first)
    (later : ∀ value, earlier value → Yields property (next value)) :
    Yields property (first >>= next) := by
  intro value read
  obtain ⟨middle, found, read⟩ := except_bind_ok_iff.mp read
  exact later middle (starts middle found) value read

/-- What is read last decides alone. -/
theorem yields_bind {first : Except Error β} {next : β → Except Error α}
    (later : ∀ value, Yields property (next value)) : Yields property (first >>= next) :=
  Yields.bind (fun _ read => read) fun middle (_ : first = .ok middle) => later middle

end Yields

namespace Invocation

/-- The command as it is typed. -/
def command : Invocation → Command
  | .alter .. => .alter
  | .closeRegion .. => .closeRegion
  | .count .. => .count
  | .create .. => .create
  | .delete .. => .delete
  | .deleteAll .. => .deleteAll
  | .describe .. => .describe
  | .disable .. => .disable
  | .drop .. => .drop
  | .enable .. => .enable
  | .checkExists .. => .checkExists
  | .exit .. => .exit
  | .get .. => .get
  | .help .. => .help
  | .increment .. => .increment
  | .list => .list
  | .maintain .flush _ => .flush
  | .maintain .compact _ => .compact
  | .maintain .majorCompact _ => .majorCompact
  | .maintain .split _ => .split
  | .put .. => .put
  | .scan .. => .scan
  | .setRegionOnline _ online => if online then .enableRegion else .disableRegion
  | .status .. => .status
  | .tools => .tools
  | .truncate .. => .truncate
  | .version => .version

variable {command : Command} {args : List Arg} {property : Invocation → Prop}

/-- A command on a table yields what is made for every table. -/
theorem onTable_yields {make : String → Invocation} (makes : ∀ table, property (make table)) :
    Yields property (onTable command args make) :=
  yields_bind fun _ => yields_bind fun table => yields_pure (makes table)

/-- A command on a target yields what is made for every target. -/
theorem onTarget_yields {operation : Maintenance}
    (makes : ∀ target, property (.maintain operation target)) :
    Yields property (onTarget command args operation) :=
  yields_bind fun _ => yields_bind fun target => yields_pure (makes target)

/-- A command on a region yields what is made for every region. -/
theorem onRegion_yields {online : Bool}
    (makes : ∀ region, property (.setRegionOnline region online)) :
    Yields property (onRegion command args online) :=
  yields_bind fun _ => yields_bind fun region => yields_pure (makes region)

/-- A command without arguments yields what it makes. -/
theorem alone_yields {made : Invocation} (makes : property made) :
    Yields property (alone command args made) :=
  yields_bind fun _ => yields_pure makes

/-- A command that has been read tells which command was typed. -/
theorem ofArgs_command (command : Command) (args : List Arg) :
    Yields (fun invocation => invocation.command = command) (ofArgs command args) := by
  cases command with
  | describe | disable | drop | enable | checkExists | truncate =>
      exact onTable_yields fun _ => rfl
  | compact | flush | majorCompact | split => exact onTarget_yields fun _ => rfl
  | disableRegion | enableRegion => exact onRegion_yields fun _ => rfl
  | list | tools | version => exact alone_yields rfl
  | get => exact yields_bind fun _ => yields_bind fun _ => yields_pure rfl
  | alter | closeRegion | create | delete | deleteAll | exit | help | increment | status =>
      exact yields_bind fun _ => yields_bind fun _ => yields_bind fun _ => yields_pure rfl
  | count | put | scan =>
      exact yields_bind fun _ => yields_bind fun _ => yields_bind fun _ => yields_bind fun _ =>
        yields_pure rfl

/-- The families of a creation have been read from its arguments. -/
theorem families_of_ofArgs {table : String} {families : List FamilySettings}
    (read : ofArgs command args = .ok (.create table families)) :
    ∃ given, FamilySettings.ofCreateArgs table given = .ok families := by
  obtain rfl : Command.create = command := ofArgs_command command args _ read
  obtain ⟨arguments, _, read⟩ := except_bind_ok_iff.mp read
  obtain ⟨name, _, read⟩ := except_bind_ok_iff.mp read
  obtain ⟨settings, found, read⟩ := except_bind_ok_iff.mp read
  obtain ⟨rfl, rfl⟩ := Invocation.create.inj (Except.ok.inj read)
  exact ⟨_, found⟩

/-- The change of an alteration has been read from a dictionary. -/
theorem alteration_of_ofArgs {table : String} {alteration : Alteration}
    (read : ofArgs command args = .ok (.alter table alteration)) :
    ∃ options, Alteration.ofDictionary options = .ok alteration := by
  obtain rfl : Command.alter = command := ofArgs_command command args _ read
  obtain ⟨arguments, _, read⟩ := except_bind_ok_iff.mp read
  obtain ⟨name, _, read⟩ := except_bind_ok_iff.mp read
  obtain ⟨change, found, read⟩ := except_bind_ok_iff.mp read
  obtain ⟨rfl, rfl⟩ := Invocation.alter.inj (Except.ok.inj read)
  obtain ⟨given, _, found⟩ := except_bind_ok_iff.mp found
  cases given with
  | none => cases found
  | some options => exact ⟨options, found⟩

/-- The command that a name and arguments make, if the shell has one of that name and takes the
arguments. -/
def read? (name : String) (args : List Arg) : Option Invocation :=
  match Command.ofName? name with
  | none => none
  | some command => (ofArgs command args).toOption

/-- A command line is read if its name is known and its arguments are read. -/
theorem read?_eq_some_iff {name : String} {invocation : Invocation} :
    read? name args = some invocation ↔
      ∃ command, Command.ofName? name = some command ∧ ofArgs command args = .ok invocation := by
  unfold read?
  cases known : Command.ofName? name with
  | none =>
      constructor
      · rintro ⟨⟩
      · rintro ⟨_, ⟨⟩, _⟩
  | some command =>
      dsimp only
      cases taken : ofArgs command args with
      | error error =>
          constructor
          · rintro ⟨⟩
          · rintro ⟨_, ⟨⟩, found⟩
            cases taken.symm.trans found
      | ok found =>
          simp [Except.toOption, taken]

end Invocation

end WideColumn
