/-
# Faults — why the database refuses a statement or a read

`ReadFault` is about one cell of a result: it cannot be turned into the type it
is read as.  `Fault` is everything that a call on the database can fail with.
Columns of a result are counted from zero.
-/
import MessageCache.Table.Cell

namespace MessageCache

/-- Why a cell of a result cannot be read as a type. -/
inductive ReadFault where
  /-- The cell is of a class that the type does not take. -/
  | wrongClass (found : StorageClass) (index : Nat) (column : String)
  /-- The integer lies below the range of the type. -/
  | tooSmall (index : Nat)
  /-- The integer lies above the range of the type. -/
  | tooLarge (index : Nat)
  /-- The text is not UTF-8. -/
  | notUtf8 (index : Nat) (fault : Utf8.Fault)
deriving DecidableEq

def ReadFault.message : ReadFault → String
  | .wrongClass found index column =>
    s!"Invalid column type {found.name} at index: {index}, name: {column}"
  | .tooSmall index =>
    s!"Conversion error from type Integer at index: {index}, number too small to fit in target type"
  | .tooLarge index =>
    s!"Conversion error from type Integer at index: {index}, number too large to fit in target type"
  | .notUtf8 index fault =>
    s!"Conversion error from type Text at index: {index}, {fault.message}"

/-- Why a call on the database fails. -/
inductive Fault where
  /-- A statement breaks off in the middle of a name. -/
  | unfinishedName (start : String)
  /-- A list of columns has nothing in it. -/
  | noColumns
  /-- Names of tables that begin like those of the database's own are refused. -/
  | reservedName (name : String)
  | noSuchTable (table : String)
  | noSuchColumn (column : String)
  /-- An insertion names a column that the table does not have. -/
  | unknownColumn (table column : String)
  | duplicateColumn (column : String)
  | tooManyColumns (table : String)
  | tableExists (table : String)
  | indexExists (index : String)
  /-- The name that a new index is given is that of a table. -/
  | namedLikeTable (name : String)
  /-- The name that a new table is given is that of an index. -/
  | namedLikeIndex (name : String)
  /-- A table of the database's own. -/
  | mayNotBeDropped (table : String)
  /-- A table that is made up on demand cannot be made up without arguments. -/
  | invalidArguments (table : String)
  /-- A table is called with arguments that does not take any. -/
  | notAFunction (table : String)
  /-- An insertion of a whole row has another number of values. -/
  | wrongNumberOfValues (table : String) (columns values : Nat)
  /-- An insertion says what to do about another row with the same value in a column
  that is not the key. -/
  | noConflictTarget
  /-- A row id that is no integer. -/
  | idMismatch
  | notNull (table column : String)
  /-- A key that another row already has. -/
  | notUnique (table column : String)
  | integerOverflow
  | notADatabase
  /-- The name of a file holds a byte that no name can hold. -/
  | nulByte (position : Nat)
  /-- The name of a file asks for one on another machine. -/
  | invalidAuthority (authority : String)
  /-- The name of a file sets a parameter of some kind to a value that it cannot
  have. -/
  | noSuchMode (kind value : String)
  /-- More access is asked for than can be had. -/
  | modeNotAllowed (kind value : String)
  | noSuchFileSystem (name : String)
  /-- The file cannot be used; the path is known if that shows when connecting. -/
  | cannotOpen (path : Option String)
  | deviceError
  /-- A database that was there is damaged. -/
  | malformed
  /-- Another connection is in the way. -/
  | locked
  /-- Another connection seems to be in the way again and again. -/
  | busyForever
  /-- A change of what may only be read. -/
  | readOnly
  | read (fault : ReadFault)
  | invalidParameterName (name : String)
deriving DecidableEq

/-- A rule of the table that a row breaks, found out only when the row is there:
anything else is found out before a statement begins. -/
def Fault.isBrokenRule : Fault → Bool
  | .idMismatch | .notNull _ _ | .notUnique _ _ => true
  | _ => false

/-- Before the fault is reported one looks at the database again: what is missing
may have been created since one last looked, and what is in the way dropped. -/
def Fault.isRechecked : Fault → Bool
  | .noSuchTable _ | .noSuchColumn _ | .unknownColumn _ _ => true
  | .tableExists _ | .namedLikeIndex _ | .reservedName _ => true
  | _ => false

/-- A name between quotation marks, where a quotation mark is written twice. -/
def quotedName (name : String) : String :=
  "\"" ++ String.ofList (name.toList.flatMap fun c => if c = '"' then [c, c] else [c]) ++ "\""

def Fault.message : Fault → String
  | .unfinishedName start => s!"unrecognized token: \"{start}\""
  | .noColumns => "near \")\": syntax error"
  | .reservedName name => s!"object name reserved for internal use: {name}"
  | .noSuchTable table => s!"no such table: {table}"
  | .noSuchColumn column => s!"no such column: {column}"
  | .unknownColumn table column => s!"table {table} has no column named {column}"
  | .duplicateColumn column => s!"duplicate column name: {column}"
  | .tooManyColumns table => s!"too many columns on {table}"
  | .tableExists table => s!"table {quotedName table} already exists"
  | .indexExists index => s!"index {index} already exists"
  | .namedLikeTable name => s!"there is already a table named {name}"
  | .namedLikeIndex name => s!"there is already an index named {name}"
  | .mayNotBeDropped table => s!"table {table} may not be dropped"
  | .invalidArguments table => s!"invalid arguments to {table} constructor"
  | .notAFunction table => s!"'{table}' is not a function"
  | .wrongNumberOfValues table columns values =>
    s!"table {table} has {columns} columns but {values} values were supplied"
  | .noConflictTarget =>
    "ON CONFLICT clause does not match any PRIMARY KEY or UNIQUE constraint"
  | .idMismatch => "datatype mismatch"
  | .notNull table column => s!"NOT NULL constraint failed: {table}.{column}"
  | .notUnique table column => s!"UNIQUE constraint failed: {table}.{column}"
  | .integerOverflow => "integer overflow"
  | .notADatabase => "file is not a database"
  | .nulByte position => s!"nul byte found in provided data at position: {position}"
  | .invalidAuthority authority => s!"invalid uri authority: {authority}"
  | .noSuchMode kind value => s!"no such {kind} mode: {value}"
  | .modeNotAllowed kind value => s!"{kind} mode not allowed: {value}"
  | .noSuchFileSystem name => s!"no such vfs: {name}"
  | .cannotOpen none => "unable to open database file"
  | .cannotOpen (some path) => s!"unable to open database file: {path}"
  | .deviceError => "disk I/O error"
  | .malformed => "database disk image is malformed"
  | .locked => "database is locked"
  | .busyForever => "locking protocol"
  | .readOnly => "attempt to write a readonly database"
  | .read fault => fault.message
  | .invalidParameterName name => s!"Invalid parameter name: {name}"

end MessageCache
