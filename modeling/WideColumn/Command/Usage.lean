import WideColumn.Command.Name

/-!
# Usage texts

The usage of every command: a summary and examples. It is shown by the command `help` and after an
invocation that was refused. The first line alone is the summary in the list of commands.
-/

namespace WideColumn.Command

/-- The usage of a command, line by line. -/
def usageLines : Command → List String
  | .alter =>
    ["Change a table schema; pass the table name and a dictionary.",
      "",
      "Add column family 'f1', or change it if it exists, to keep 5 versions:",
      "  alter 't1', \x7bNAME => 'f1', VERSIONS => 5\x7d",
      "",
      "Remove column family 'f1':",
      "  alter 't1', \x7bNAME => 'f1', METHOD => 'delete'\x7d",
      "",
      "Change table attributes MAX_FILESIZE, READONLY, MEMSTORE_FLUSHSIZE or",
      "DEFERRED_LOG_FLUSH:",
      "  alter 't1', \x7bMETHOD => 'table_att', MAX_FILESIZE => '134217728'\x7d"]
  | .closeRegion =>
    ["Close a region, optionally naming the server expected to host it:",
      "",
      "  close_region 'REGIONNAME'",
      "  close_region 'REGIONNAME', 'HOST:PORT'"]
  | .compact =>
    ["Run a minor compaction on every region of a table, or on one region:",
      "",
      "  compact 'TABLENAME'",
      "  compact 'REGIONNAME'"]
  | .count =>
    ["Count the rows of a table; this may take a long time on large tables.",
      "The running count is shown every 1000 rows unless another interval is given:",
      "",
      "  count 't1'",
      "  count 't1', 100000"]
  | .create =>
    ["Create a table; pass the table name and one or more column families,",
      "each a name or a dictionary of family attributes.",
      "",
      "  create 't1', \x7bNAME => 'f1', VERSIONS => 5\x7d",
      "  create 't1', \x7bNAME => 'f1'\x7d, \x7bNAME => 'f2'\x7d",
      "  create 't1', 'f1', 'f2', 'f3'",
      "  create 't1', \x7bNAME => 'f1', VERSIONS => 1, TTL => 2592000, BLOCKCACHE => true\x7d",
      "",
      "Family attributes: NAME, VERSIONS, COMPRESSION, IN_MEMORY, BLOCKCACHE,",
      "BLOCKSIZE, TTL, BLOOMFILTER, REPLICATION_SCOPE."]
  | .delete =>
    ["Delete the newest version of a cell, or the version at the given timestamp.",
      "A bare family deletes every column of that family in the row:",
      "",
      "  delete 't1', 'r1', 'c1:q'",
      "  delete 't1', 'r1', 'c1:q', ts1",
      "  delete 't1', 'r1', 'c1'"]
  | .deleteAll =>
    ["Delete all cells of a row, optionally only of one column or family and",
      "only up to a timestamp:",
      "",
      "  deleteall 't1', 'r1'",
      "  deleteall 't1', 'r1', 'c1'",
      "  deleteall 't1', 'r1', 'c1:q', ts1"]
  | .describe =>
    ["Show the schema of a table and whether it is enabled:",
      "",
      "  describe 't1'"]
  | .disable =>
    ["Disable a table:",
      "",
      "  disable 't1'"]
  | .disableRegion =>
    ["Take a region offline:",
      "",
      "  disable_region 'REGIONNAME'"]
  | .drop =>
    ["Delete a table and its data. The table must be disabled first:",
      "",
      "  disable 't1'",
      "  drop 't1'"]
  | .enable =>
    ["Enable a table:",
      "",
      "  enable 't1'"]
  | .enableRegion =>
    ["Bring an offline region back online:",
      "",
      "  enable_region 'REGIONNAME'"]
  | .checkExists =>
    ["Check whether a table exists:",
      "",
      "  exists 't1'"]
  | .exit =>
    ["Leave the shell, optionally with an exit code:",
      "",
      "  exit",
      "  exit 2"]
  | .flush =>
    ["Flush the memstores of every region of a table, or of one region:",
      "",
      "  flush 'TABLENAME'",
      "  flush 'REGIONNAME'"]
  | .get =>
    ["Read a row or some of its cells; pass the table name, the row and",
      "optionally a dictionary of COLUMN(S), TIMESTAMP, VERSIONS and MAXLENGTH:",
      "",
      "  get 't1', 'r1'",
      "  get 't1', 'r1', \x7bCOLUMN => 'c1'\x7d",
      "  get 't1', 'r1', \x7bCOLUMN => ['c1', 'c2', 'c3']\x7d",
      "  get 't1', 'r1', \x7bCOLUMN => 'c1', TIMESTAMP => ts1\x7d",
      "  get 't1', 'r1', \x7bCOLUMN => 'c1', TIMESTAMP => ts1, VERSIONS => 4\x7d",
      "  get 't1', 'r1', 'c1'"]
  | .help =>
    ["List every command, or show the usage of one:",
      "",
      "  help",
      "  help 'scan'"]
  | .increment =>
    ["Add to a counter cell (by 1 unless another amount is given) and show the",
      "new value:",
      "",
      "  incr 't1', 'r1', 'c1'",
      "  incr 't1', 'r1', 'c1', 10"]
  | .list =>
    ["List all user tables"]
  | .majorCompact =>
    ["Run a major compaction on every region of a table, or on one region:",
      "",
      "  major_compact 'TABLENAME'",
      "  major_compact 'REGIONNAME'"]
  | .put =>
    ["Write a cell value, optionally at an explicit timestamp:",
      "",
      "  put 't1', 'r1', 'c1', 'value'",
      "  put 't1', 'r1', 'c1', 'value', ts1"]
  | .scan =>
    ["Scan a table; pass the table name and optionally a dictionary of",
      "COLUMNS, STARTROW, STOPROW, TIMESTAMP, VERSIONS, LIMIT, CACHE_BLOCKS,",
      "FILTER and MAXLENGTH. Without COLUMNS every family is scanned:",
      "",
      "  scan '.META.'",
      "  scan '.META.', \x7bCOLUMNS => 'info:regioninfo'\x7d",
      "  scan 't1', \x7bCOLUMNS => ['c1', 'c2'], LIMIT => 10, STARTROW => 'xyz'\x7d",
      "  scan 't1', \x7bFILTER => \"PrefixFilter('row')\"\x7d",
      "  scan 't1', \x7bCOLUMNS => 'c1', CACHE_BLOCKS => false\x7d"]
  | .split =>
    ["Split every region of a table, or one region, at its middle row:",
      "",
      "  split 'TABLENAME'",
      "  split 'REGIONNAME'"]
  | .status =>
    ["Show cluster status at level 'summary' (default), 'simple' or 'detailed':",
      "",
      "  status",
      "  status 'simple'",
      "  status 'detailed'"]
  | .tools =>
    ["List the region surgery tools"]
  | .truncate =>
    ["Disable, drop and recreate a table with the same schema:",
      "",
      "  truncate 't1'",
      "",
      "Not atomic: if recreation fails the table stays dropped."]
  | .version =>
    ["Show the shell and store client versions"]

/-- The usage of a command. -/
def usage (command : Command) : String :=
  String.intercalate "\n" command.usageLines

/-- The first line of the usage. -/
def summary (command : Command) : String :=
  (command.usageLines.head?).getD ""

end WideColumn.Command
