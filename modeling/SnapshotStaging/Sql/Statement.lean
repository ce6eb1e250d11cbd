import SnapshotStaging.Column
import SnapshotStaging.Sql.Row

/-!
# Statements

Everything that a load or a merge asks of the database is a `Statement`; `Statement.sql` is its text
in a dialect. Table names are written as they are, column names between double quotes.

| here | there |
| --- | --- |
| `TableName.loading`, `history`, `latest` | `loading_table_name`, `history_table_name`, `latest_history_table_name` |
| `insertHead`, `insertText` | `InsertBuffer.prefix`, the statement of `InsertBuffer.flush` |
| `createLoadingText` | `StagingService.create_loading_table` |
| `createHistoryText` | `MergeService.ensure_history_table` |
| `createLatestText` | `MergeService.extract_latest` |
| `appendChangesText` | `MergeService.append_changes` |
-/

namespace SnapshotStaging

namespace TableName

/-- The table that a load fills. -/
def loading (table : String) : String := table ++ "_loading"

/-- The table of all versions. -/
def history (table : String) : String := table ++ "_history"

/-- The table of latest versions while a merge runs. -/
def latest (table : String) : String := table ++ "_latest_history"

end TableName

/-- The longest text that a column of texts holds. -/
def maxTextLength : Nat := 65535

inductive Statement
  | drop (name : String)
  | createLoading (table : String) (columns : List Column)
  | comment (table text : String)
  | grant (table grantee : String)
  | insert (table : String) (rows : List Row)
  | deleteKey (table : String) (sk : Int)
  | createHistory (table : String)
  | createLatest (table : String)
  | appendChanges (table : String)
  | rename (name target : String)

namespace Statement

/-- The beginning of every insertion into a loading table. -/
def insertHead (table : String) : String := s!"INSERT INTO {TableName.loading table} VALUES "

/-- An insertion of rows that are already texts. -/
def insertText (table : String) (rows : List String) : String :=
  insertHead table ++ ",".intercalate rows ++ ";"

/-- The lines of a table's definition for its inferred columns. -/
def columnLines (c : Column) : List String :=
  let line := s!"    \"{c.name}\" {c.type.sql},"
  if c.type = .reference then [s!"    \"{Column.keyName c.name}\" BIGINT,", line] else [line]

def createLoadingText (d : Dialect) (table : String) (columns : List Column) : String :=
  let lines :=
    ["    sk BIGINT NOT NULL,", s!"    id VARCHAR({maxTextLength}) NOT NULL,"] ++
      columns.flatMap columnLines ++
      [s!"    data {d.jsonType},", "    tenant_id SMALLINT NOT NULL,", "    PRIMARY KEY (sk),",
        "    UNIQUE (id)"]
  s!"CREATE TABLE {TableName.loading table} (\n" ++ "\n".intercalate lines ++ "\n)" ++
    d.tableKeys "sk" "sk" ++ ";"

def createHistoryText (d : Dialect) (table : String) : String :=
  s!"CREATE TABLE IF NOT EXISTS {TableName.history table} (\n" ++
    s!"    id VARCHAR({maxTextLength}) NOT NULL,\n" ++
    s!"    data {d.jsonType},\n" ++
    "    updated TIMESTAMPTZ NOT NULL,\n" ++
    "    tenant_id SMALLINT NOT NULL\n" ++
    ")" ++ d.tableKeys "id" "updated" ++ ";"

def createLatestText (table : String) : String :=
  let history := TableName.history table
  s!"CREATE TEMPORARY TABLE {TableName.latest table} AS\n" ++
    "SELECT id, data, tenant_id\n" ++
    s!"    FROM {history} AS h1\n" ++
    "    WHERE NOT EXISTS\n" ++
    "      ( SELECT 1\n" ++
    s!"            FROM {history} AS h2\n" ++
    "            WHERE h1.tenant_id = h2.tenant_id AND\n" ++
    "                  h1.id = h2.id AND\n" ++
    "                  h1.updated < h2.updated\n" ++
    "      );"

def appendChangesText (d : Dialect) (table : String) : String :=
  s!"INSERT INTO {TableName.history table}\n" ++
    "    (id, data, updated, tenant_id)\n" ++
    "SELECT s.id,\n" ++
    "       s.data,\n" ++
    s!"       {d.now},\n" ++
    "       s.tenant_id\n" ++
    s!"    FROM {TableName.loading table} AS s\n" ++
    s!"        LEFT JOIN {TableName.latest table} AS h\n" ++
    "            ON s.tenant_id = h.tenant_id AND\n" ++
    "               s.id = h.id\n" ++
    "    WHERE s.data IS NOT NULL AND\n" ++
    "          ( h.id IS NULL OR\n" ++
    "            " ++ d.textCast "s.data" ++ " <> " ++ d.textCast "h.data" ++ " );"

/-- The text of a statement. -/
def sql (d : Dialect) : Statement → String
  | .drop name => s!"DROP TABLE IF EXISTS {name};"
  | .createLoading table columns => createLoadingText d table columns
  | .comment table text => s!"COMMENT ON TABLE {TableName.loading table} IS {d.quoted text};"
  | .grant table grantee => s!"GRANT SELECT ON {TableName.loading table} TO {grantee};"
  | .insert table rows => insertText table (rows.map (Row.sql d))
  | .deleteKey table sk =>
    s!"DELETE FROM {TableName.loading table} WHERE sk = {String.ofList (signedDigits sk)};"
  | .createHistory table => createHistoryText d table
  | .createLatest table => createLatestText table
  | .appendChanges table => appendChangesText d table
  | .rename name target => s!"ALTER TABLE {name} RENAME TO {target};"

end Statement

end SnapshotStaging
