import WideColumn.Text.Lines

/-!
# Commands

The commands of the shell with their names, the sections of the help they are listed in, and their
usage. `Command.all` lists them by name.
-/

namespace WideColumn

/-- A section of the help. -/
inductive CommandGroup where
  /-- Commands on the session and the cluster. -/
  | general
  /-- Commands on tables and schemas. -/
  | definition
  /-- Commands on data. -/
  | manipulation
  /-- Commands on regions. -/
  | tools
  deriving DecidableEq, Inhabited

namespace CommandGroup

/-- All sections in the order of the help. -/
def all : List CommandGroup :=
  [.general, .definition, .manipulation, .tools]

/-- The heading of a section. -/
def title : CommandGroup → String
  | .general => "GENERAL"
  | .definition => "DDL"
  | .manipulation => "DML"
  | .tools => "TOOLS"

end CommandGroup

/-- A command of the shell. -/
inductive Command where
  | alter
  | closeRegion
  | compact
  | count
  | create
  | delete
  | deleteAll
  | describe
  | disable
  | disableRegion
  | drop
  | enable
  | enableRegion
  | checkExists
  | exit
  | flush
  | get
  | help
  | increment
  | list
  | majorCompact
  | put
  | scan
  | split
  | status
  | tools
  | truncate
  | version
  deriving DecidableEq, Inhabited

namespace Command

/-- All commands, in the order of their names. -/
def all : List Command :=
  [.alter, .closeRegion, .compact, .count, .create, .delete, .deleteAll, .describe, .disable,
    .disableRegion, .drop, .enable, .enableRegion, .checkExists, .exit, .flush, .get, .help,
    .increment, .list, .majorCompact, .put, .scan, .split, .status, .tools, .truncate, .version]

/-- The name a command is typed by. -/
def name : Command → String
  | .alter => "alter"
  | .closeRegion => "close_region"
  | .compact => "compact"
  | .count => "count"
  | .create => "create"
  | .delete => "delete"
  | .deleteAll => "deleteall"
  | .describe => "describe"
  | .disable => "disable"
  | .disableRegion => "disable_region"
  | .drop => "drop"
  | .enable => "enable"
  | .enableRegion => "enable_region"
  | .checkExists => "exists"
  | .exit => "exit"
  | .flush => "flush"
  | .get => "get"
  | .help => "help"
  | .increment => "incr"
  | .list => "list"
  | .majorCompact => "major_compact"
  | .put => "put"
  | .scan => "scan"
  | .split => "split"
  | .status => "status"
  | .tools => "tools"
  | .truncate => "truncate"
  | .version => "version"

/-- The section a command is listed in. -/
def group : Command → CommandGroup
  | .exit | .help | .status | .tools | .version => .general
  | .alter | .create | .describe | .disable | .drop | .enable | .checkExists | .list
  | .truncate => .definition
  | .count | .delete | .deleteAll | .get | .increment | .put | .scan => .manipulation
  | .closeRegion | .compact | .disableRegion | .enableRegion | .flush | .majorCompact
  | .split => .tools

/-- The command of a name. -/
def ofName? (name : String) : Option Command :=
  all.find? fun command => command.name == name

/-- The commands of a section, by name. -/
def inGroup (group : CommandGroup) : List Command :=
  all.filter fun command => command.group == group

/-- The names of all commands, in order. -/
def names : List String :=
  all.map name

end Command

end WideColumn
