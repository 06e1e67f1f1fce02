/-
# Own tables — those that nobody created

A database keeps two tables about itself, and makes others up on demand: for the
members of a text in JSON, for the pages of its file, for the parts of a text,
and one for each of its settings that has a value to show.  None of them can be
dropped.  All are found by key.
-/
import MessageCache.Table.Basic

namespace MessageCache

/-- A table of the database's own. -/
inductive OwnTable where
  /-- It has one name, whatever it was found under. -/
  | named (name : String)
  /-- It is for a setting, and has the name that it is first found under. -/
  | setting (name : String)
  /-- It cannot be made up without arguments. -/
  | parametric (name : String)
deriving DecidableEq

namespace OwnTable

/-- What the name of a table for a setting begins with. -/
def settingStart : String := "pragma_"

/-- The settings that have a value to show. -/
def settings : List String :=
  ["analysis_limit", "application_id", "auto_vacuum", "automatic_index", "busy_timeout",
    "cache_size", "cache_spill", "cell_size_check", "checkpoint_fullfsync", "collation_list",
    "compile_options", "count_changes", "data_version", "database_list", "default_cache_size",
    "defer_foreign_keys", "empty_result_callbacks", "encoding", "foreign_key_check",
    "foreign_key_list", "foreign_keys", "freelist_count", "full_column_names", "fullfsync",
    "function_list", "hard_heap_limit", "ignore_check_constraints", "index_info", "index_list",
    "index_xinfo", "integrity_check", "journal_mode", "journal_size_limit", "legacy_alter_table",
    "locking_mode", "max_page_count", "module_list", "optimize", "page_count", "page_size",
    "pragma_list", "query_only", "quick_check", "read_uncommitted", "recursive_triggers",
    "reverse_unordered_selects", "schema_version", "secure_delete", "short_column_names",
    "soft_heap_limit", "synchronous", "table_info", "table_list", "table_xinfo", "temp_store",
    "threads", "trusted_schema", "user_version", "writable_schema"]

/-- The keys of the other tables, each with the table. -/
def others : List (String × OwnTable) :=
  [("sqlite_master", .named "sqlite_master"), ("sqlite_schema", .named "sqlite_master"),
    ("sqlite_temp_master", .named "sqlite_temp_master"),
    ("sqlite_temp_schema", .named "sqlite_temp_master"), ("json_each", .named "json_each"),
    ("json_tree", .named "json_tree"), ("dbstat", .named "dbstat"),
    ("fts3tokenize", .named "fts3tokenize"), ("fts4aux", .parametric "fts4aux")]

/-- The table of the database's own that a name means. -/
def ofName? (name : String) : Option OwnTable :=
  let key := nameKey name
  if settings.any fun s => settingStart ++ s = key then some (.setting name)
  else (others.find? fun t => t.1 = key).map (·.2)

/-- Why the table cannot be dropped. -/
def dropFault : OwnTable → Fault
  | .named name | .setting name => .mayNotBeDropped name
  | .parametric name => .invalidArguments name

end OwnTable

end MessageCache
